import LayerStack.Layer.Kind

/-! Shapes: the sizes that no layer stores but that operation counts need.  A size that is left
open takes the default of the kind that is counted. -/

namespace LayerStack

/-- A size that a shape may give. -/
inductive Dimension where
  | seqLen
  | inputSize
  | batchSize
  | channels
  | spatialSize
  deriving DecidableEq, Repr

namespace Dimension

/-- Every dimension, in the alphabetical order of the names. -/
def all : List Dimension := [.batchSize, .channels, .inputSize, .seqLen, .spatialSize]

def name : Dimension → String
  | .seqLen => "seq_len"
  | .inputSize => "input_size"
  | .batchSize => "batch_size"
  | .channels => "channels"
  | .spatialSize => "spatial_size"

def ofName? (s : String) : Option Dimension := all.find? fun d => decide (d.name = s)

theorem ofName?_name (d : Dimension) : ofName? d.name = some d := by
  cases d <;> decide

end Dimension

/-- The sizes that are given; zero and negative ones count as given too. -/
structure Shape where
  size? : Dimension → Option Int

namespace Shape

def empty : Shape := ⟨fun _ => none⟩

def set (shape : Shape) (d : Dimension) (n : Int) : Shape :=
  ⟨fun e => if e = d then some n else shape.size? e⟩

@[simp] theorem size?_set_self (shape : Shape) (d : Dimension) (n : Int) :
    (shape.set d n).size? d = some n := by
  simp [set]

theorem size?_set_of_ne (shape : Shape) {d e : Dimension} (n : Int) (h : e ≠ d) :
    (shape.set d n).size? e = shape.size? e := by
  simp [set, h]

end Shape

/-- The sizes that a kind assumes. -/
def Kind.defaultSize? : Kind → Dimension → Option Int
  | .conv2d, .inputSize => some 224
  | .lstm, .seqLen | .gru, .seqLen => some 128
  | .transformer, .seqLen | .attention, .seqLen => some 512
  | .batchnorm, .batchSize => some 32
  | .batchnorm, .spatialSize => some 1
  | .layernorm, .batchSize => some 32
  | .layernorm, .seqLen => some 512
  | .maxpool2d, .channels | .avgpool2d, .channels => some 64
  | .maxpool2d, .inputSize | .avgpool2d, .inputSize => some 224
  | _, _ => none

/-- The shape with its open sizes filled by the defaults of a kind. -/
def Shape.resolve (kind : Kind) (shape : Shape) : Shape :=
  ⟨fun d => (shape.size? d).or (kind.defaultSize? d)⟩

/-- The size that counting a layer of a kind takes for `d`.  A kind has a default for every size
that its count reads, so the zero never shows. -/
def Shape.sizeFor (shape : Shape) (kind : Kind) (d : Dimension) : Int :=
  ((shape.resolve kind).size? d).getD 0

theorem Shape.sizeFor_of_some {shape : Shape} {d : Dimension} {n : Int} (kind : Kind)
    (h : shape.size? d = some n) : shape.sizeFor kind d = n := by
  simp [sizeFor, resolve, h]

theorem Shape.sizeFor_of_none {shape : Shape} {d : Dimension} (kind : Kind)
    (h : shape.size? d = none) : shape.sizeFor kind d = (kind.defaultSize? d).getD 0 := by
  simp [sizeFor, resolve, h]

end LayerStack
