import LayerStack.Layer.Field
import LayerStack.Palette.Language

/-! The palette: each kind of layer as an editor shows it, in a language and a light or dark theme.
Nothing here takes part in counting. -/

namespace LayerStack

/-- The picture of a kind, and its colours in the light and in the dark theme. -/
structure Appearance where
  icon : String
  light : String
  dark : String

def Kind.appearance : Kind → Appearance
  | .embedding =>
    ⟨"📚", "bg-purple-100 border-purple-300", "bg-purple-900/30 border-purple-700"⟩
  | .linear =>
    ⟨"🔗", "bg-blue-100 border-blue-300", "bg-blue-900/30 border-blue-700"⟩
  | .conv2d =>
    ⟨"🖼️", "bg-green-100 border-green-300", "bg-green-900/30 border-green-700"⟩
  | .lstm =>
    ⟨"🔄", "bg-orange-100 border-orange-300", "bg-orange-900/30 border-orange-700"⟩
  | .gru =>
    ⟨"🔁", "bg-red-100 border-red-300", "bg-red-900/30 border-red-700"⟩
  | .transformer =>
    ⟨"⚡", "bg-pink-100 border-pink-300", "bg-pink-900/30 border-pink-700"⟩
  | .attention =>
    ⟨"👁️", "bg-fuchsia-100 border-fuchsia-300", "bg-fuchsia-900/30 border-fuchsia-700"⟩
  | .batchnorm =>
    ⟨"📊", "bg-yellow-100 border-yellow-300", "bg-yellow-900/30 border-yellow-700"⟩
  | .layernorm =>
    ⟨"🎯", "bg-indigo-100 border-indigo-300", "bg-indigo-900/30 border-indigo-700"⟩
  | .dropout =>
    ⟨"💧", "bg-gray-100 border-gray-300", "bg-gray-800 border-gray-600"⟩
  | .maxpool2d =>
    ⟨"⬇️", "bg-teal-100 border-teal-300", "bg-teal-900/30 border-teal-700"⟩
  | .avgpool2d =>
    ⟨"📉", "bg-cyan-100 border-cyan-300", "bg-cyan-900/30 border-cyan-700"⟩
  | .relu =>
    ⟨"🔥", "bg-lime-100 border-lime-300", "bg-lime-900/30 border-lime-700"⟩
  | .softmax =>
    ⟨"🎲", "bg-amber-100 border-amber-300", "bg-amber-900/30 border-amber-700"⟩

structure PaletteEntry where
  kind : Kind
  name : String
  description : String
  icon : String
  color : String
  labels : List (Field × String)

namespace PaletteEntry

/-- A kind of layer in a language and a theme. -/
def ofKind (strings : Strings) (dark : Bool) (kind : Kind) : PaletteEntry where
  kind := kind
  name := (strings.layer kind).1
  description := (strings.layer kind).2
  icon := kind.appearance.icon
  color := if dark then kind.appearance.dark else kind.appearance.light
  labels := kind.fields.map fun field => (field, strings.fieldLabel field.key)

end PaletteEntry

/-- The members of a field that its range settles. -/
def FieldRange.toMembers : FieldRange → Members
  | .whole choices => [("options", .list (choices.map Value.int))]
  | .real least most step =>
    [("min", .int least), ("max", .int most), ("step", .real step)]
  | .flag => []

/-- The JSON form of a field under a label. -/
def Field.toValue (field : Field) (label : String) : Value :=
  let labelled : Members :=
    [("key", .str field.key), ("type", .str field.range.typeName), ("label", .str label)]
  .obj (labelled ++ field.range.toMembers)

def PaletteEntry.toValue (entry : PaletteEntry) : Value :=
  .obj [
    ("type", .str entry.kind.name),
    ("name", .str entry.name),
    ("description", .str entry.description),
    ("icon", .str entry.icon),
    ("color", .str entry.color),
    ("defaultParams", entry.kind.defaultConfig.toValue),
    ("fields", .list (entry.labels.map fun labelled => labelled.1.toValue labelled.2))]

def palette (language : Language) (dark : Bool) : List PaletteEntry :=
  Kind.all.map (PaletteEntry.ofKind language.strings dark)

end LayerStack
