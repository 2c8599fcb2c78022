import LayerStack.Fault

/-! The memory that a model needs, estimated from the number of its parameters. -/

namespace LayerStack

/-- How a parameter is stored. -/
inductive Precision where
  | fp32
  | fp16
  | bf16
  | int8
  deriving DecidableEq, Repr

namespace Precision

def all : List Precision := [.fp32, .fp16, .bf16, .int8]

def name : Precision → String
  | .fp32 => "fp32"
  | .fp16 => "fp16"
  | .bf16 => "bf16"
  | .int8 => "int8"

def ofName? (s : String) : Option Precision :=
  all.find? fun precision => decide (precision.name = s)

/-- The precision that a value names; full precision if it names none. -/
def ofValue (value : Value) : Precision := (value.named? ofName?).getD .fp32

def bytes : Precision → Nat
  | .fp32 => 4
  | .fp16 | .bf16 => 2
  | .int8 => 1

theorem ofName?_name (precision : Precision) : ofName? precision.name = some precision := by
  cases precision <;> decide

end Precision

/-- What a model is held in memory for. -/
inductive MemoryMode where
  | inference
  | training
  deriving DecidableEq, Repr

namespace MemoryMode

def all : List MemoryMode := [.inference, .training]

def name : MemoryMode → String
  | .inference => "inference"
  | .training => "training"

def ofName? (s : String) : Option MemoryMode := all.find? fun mode => decide (mode.name = s)

/-- The mode that a value names; training if it names none. -/
def ofValue (value : Value) : MemoryMode := (value.named? ofName?).getD .training

/-- How many numbers are held for each parameter: training adds its gradient and two moments. -/
def copies : MemoryMode → Nat
  | .inference => 1
  | .training => 4

theorem ofName?_name (mode : MemoryMode) : ofName? mode.name = some mode := by
  cases mode <;> decide

end MemoryMode

/-- The bytes that hold a model. -/
def memoryBytes (parameters : Int) (mode : MemoryMode) (precision : Precision) : Int :=
  parameters * precision.bytes * mode.copies

/-- The size of the weights at full precision, in units of 1024 times 1024 bytes. -/
def weightMegabytes (parameters : Int) : Except Fault Binary64 :=
  match Binary64.quotient? (parameters * Precision.fp32.bytes) (1024 * 1024) with
  | some size => .ok size
  | none => .error .quotientTooLarge

end LayerStack
