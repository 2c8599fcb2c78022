import LayerStack.Export.Framework
import LayerStack.Palette.Entry
import LayerStack.Report.SizeText
import LayerStack.Report.Summary
import LayerStack.Service.Input
import LayerStack.Service.Page

/-! The answers of the service, one for each thing that can be asked. -/

namespace LayerStack.Service

def pageAnswer (defaults : Defaults) (request : Request) (visit : Visit) :
    Except Fault Response := do
  let values ← settings defaults request visit
  let language := (values.get? UserSetting.language.name).getD .null
  let dark := (values.get? UserSetting.darkMode.name).getD .null
  return .text "text/html" (page (← language.plain).shown dark.isGiven) none

/-- What a switch in a query stands for. -/
def isSwitchedOn (s : String) : Bool :=
  decide (String.ofList (s.toList.map Char.toLower) ∈ ["1", "true", "yes", "on"])

/-- The palette in the language and the theme that are asked for, or else in those of the visitor.
An unknown language falls back to English. -/
def layerTypesAnswer (defaults : Defaults) (request : Request) (visit : Visit) :
    Except Fault Response := do
  let asked ← match request.argument "lang" with
    | some s => if s = "" then setting defaults request visit .language else pure (.str s)
    | none => setting defaults request visit .language
  let language ← Language.ofValue asked
  let dark ← match request.argument "dark" with
    | some s => pure (.bool (isSwitchedOn s))
    | none => setting defaults request visit .darkMode
  return .json 200 (.obj [
    ("language", .str language.code),
    ("dark_mode", dark),
    ("languages", Language.options),
    ("frameworks", .list (Framework.all.map fun framework => .str framework.name)),
    ("layer_types", .list ((palette language dark.isGiven).map PaletteEntry.toValue))])

/-- The answer about the layers of a summary, with a size at full precision. -/
def calculation [Machine] (model : Model) (precision mode : Value) (shape : Shape) :
    Except Fault Response := do
  let summary ← Summary.ofLayers model.layers shape
  let memory := memoryBytes summary.totalParameters (.ofValue mode) (.ofValue precision)
  let size ← weightMegabytes summary.totalParameters
  let operationsText ← SizeText.count (.int summary.totalOperations)
  let memoryText ← SizeText.bytes (.int memory)
  let sizeText ← SizeText.megabytes (.real size)
  return .json 200 (.obj [
    ("success", .bool true),
    ("total_params", .int summary.totalParameters),
    ("total_flops", .int summary.totalOperations),
    ("memory_bytes", .int memory),
    ("model_size_mb", .real size),
    ("num_layers", .int model.layers.length),
    ("precision", precision),
    ("mode", mode),
    ("formatted", .obj [
      ("total_params", .str (Decimal.groupedText summary.totalParameters)),
      ("total_flops", .str operationsText),
      ("memory", .str memoryText),
      ("model_size", .str sizeText)]),
    ("layers", .list (summary.rows.map fun row => .obj row.toMembers))])

/-- The totals of the posted layers and a line for each of them. -/
def calculateAnswer [Machine] (defaults : Defaults) (request : Request) (visit : Visit) :
    Drawn Response :=
  match payload request with
  | .error fault => (.error fault, visit.ids)
  | .ok data =>
    match readModel data visit.ids with
    | (.error fault, ids) => (.error fault, ids)
    | (.ok model, ids) =>
      let answer : Except Fault Response := do
        let precision ← readOption data "precision" (setting defaults request visit .precision)
        let mode ← readOption data "mode" (setting defaults request visit .memoryMode)
        let shape ← readShape data
        calculation model precision mode shape
      (answer, ids)

def groupsAnswer (request : Request) (visit : Visit) : Drawn Response :=
  match payload request with
  | .error fault => (.error fault, visit.ids)
  | .ok data =>
    match readModel data visit.ids with
    | (.error fault, ids) => (.error fault, ids)
    | (.ok model, ids) =>
      let answer : Except Fault Response := do
        let units ← NamedGroup.ofLayers model.layers
        return .json 200 (.obj [
          ("success", .bool true),
          ("units", .list (units.map fun unit => .obj unit.toMembers))])
      (answer, ids)

/-- The source that is generated for the posted layers, with the name of its framework. -/
def codeAnswer (defaults : Defaults) (request : Request) (visit : Visit) : Drawn Response :=
  match payload request with
  | .error fault => (.error fault, visit.ids)
  | .ok data =>
    match readOption data "framework" (setting defaults request visit .framework) with
    | .error fault => (.error fault, visit.ids)
    | .ok framework =>
      match readModel data visit.ids with
      | (.error fault, ids) => (.error fault, ids)
      | (.ok model, ids) =>
        let answer : Except Fault Response := do
          let program ← Program.ofLayers framework model.layers
          return .json 200 (.obj [
            ("success", .bool true),
            ("framework", framework),
            ("filename", .str program.framework.filename),
            ("code", .str program.source)])
        (answer, ids)

/-- The source that is generated for the posted layers, as a file. -/
def downloadAnswer (defaults : Defaults) (request : Request) (visit : Visit) : Drawn Response :=
  match payload request with
  | .error fault => (.error fault, visit.ids)
  | .ok data =>
    match readOption data "framework" (setting defaults request visit .framework) with
    | .error fault => (.error fault, visit.ids)
    | .ok framework =>
      match readModel data visit.ids with
      | (.error fault, ids) => (.error fault, ids)
      | (.ok model, ids) =>
        let answer : Except Fault Response := do
          let program ← Program.ofLayers framework model.layers
          let disposition := "attachment; filename=" ++ program.framework.filename
          return .text "text/plain" program.source (some disposition)
        (answer, ids)

def settingsAnswer (defaults : Defaults) (request : Request) (visit : Visit) :
    Except Fault Response :=
  (settings defaults request visit).map fun values => .json 200 (.obj values)

/-- The answer to an update of the settings.  What is stored stays stored even if the settings
cannot be shown afterwards. -/
def updateAnswer (defaults : Defaults) (request : Request) (visit : Visit) :
    Except Fault Response × Visit :=
  match request.json?.bind fun update => UserSetting.store visit.session (update.getD .null) with
  | .error fault => (.error fault, visit)
  | .ok session =>
    let visit := { visit with session }
    (settingsAnswer defaults request visit, visit)

end LayerStack.Service
