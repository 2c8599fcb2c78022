import LayerStack.Proofs.Responses

/-! The preview and the download of generated source.  Of one body they are the same program, or
they end at the same check: that of the body, of the option, of the layers or of the framework, in
this order. -/

namespace LayerStack.Service

/-- What a request for an export comes to: the fault of the first check that fails, or a program in
the framework that is asked for. -/
inductive Exports (defaults : Defaults) (request : Request) (visit : Visit) :
    Except Fault Program → Prop where
  | body {fault : Fault} (hbody : payload request = .error fault) :
    Exports defaults request visit (.error fault)
  | option {data : Members} {fault : Fault} (hbody : payload request = .ok data)
    (hoption : readOption data "framework" (setting defaults request visit .framework) =
      .error fault) :
    Exports defaults request visit (.error fault)
  | layers {data : Members} {value : Value} {fault : Fault} {ids : IdSource}
    (hbody : payload request = .ok data)
    (hoption : readOption data "framework" (setting defaults request visit .framework) = .ok value)
    (hlayers : readModel data visit.ids = (.error fault, ids)) :
    Exports defaults request visit (.error fault)
  | framework {data : Members} {value : Value} {model : Model} {ids : IdSource}
    (hbody : payload request = .ok data)
    (hoption : readOption data "framework" (setting defaults request visit .framework) = .ok value)
    (hlayers : readModel data visit.ids = (.ok model, ids))
    (hunknown : ∀ framework : Framework, value ≠ .str framework.name) :
    Exports defaults request visit (.error (.showing value (.unknownFramework value)))
  | program {data : Members} {model : Model} {ids : IdSource} {program : Program}
    (hbody : payload request = .ok data)
    (hoption : readOption data "framework" (setting defaults request visit .framework) =
      .ok (.str program.framework.name))
    (hlayers : readModel data visit.ids = (.ok model, ids))
    (hprogram : Program.ofLayers (.str program.framework.name) model.layers = .ok program) :
    Exports defaults request visit (.ok program)

section Outcomes

variable {defaults : Defaults} {request : Request} {visit : Visit}

/-- An export answers with what its request comes to. -/
theorem Exports.exporting {result : Except Fault Program} {answer : Value → Program → Response}
    (h : Exports defaults request visit result) :
    (Service.exporting answer defaults request visit).1 =
      result.map fun program => answer (.str program.framework.name) program := by
  cases h with
  | body hbody => simp [Service.exporting, hbody, Except.map]
  | option hbody hoption => simp [Service.exporting, hbody, hoption, Except.map]
  | layers hbody hoption hlayers => simp [Service.exporting, hbody, hoption, hlayers, Except.map]
  | framework hbody hoption hlayers hunknown =>
    simp [Service.exporting, hbody, hoption, hlayers, Program.ofLayers_of_ne hunknown, Except.map]
  | program hbody hoption hlayers hprogram =>
    simp [Service.exporting, hbody, hoption, hlayers, hprogram, Except.map]

/-- A request comes to one thing only. -/
theorem Exports.unique {result other : Except Fault Program}
    (h : Exports defaults request visit result) (hother : Exports defaults request visit other) :
    result = other := by
  cases h <;> cases hother <;> simp_all [Program.ofLayers_of_ne]

/-- Every request comes to something. -/
theorem exists_exports (defaults : Defaults) (request : Request) (visit : Visit) :
    ∃ result, Exports defaults request visit result := by
  cases hbody : payload request with
  | error fault => exact ⟨_, .body hbody⟩
  | ok data =>
    cases hoption : readOption data "framework" (setting defaults request visit .framework) with
    | error fault => exact ⟨_, .option hbody hoption⟩
    | ok value =>
      rcases hlayers : readModel data visit.ids with ⟨fault | model, ids⟩
      · exact ⟨_, .layers hbody hoption hlayers⟩
      · by_cases hknown : ∃ framework : Framework, value = .str framework.name
        · obtain ⟨framework, rfl⟩ := hknown
          obtain ⟨source, hprogram⟩ := Program.ofLayers_ok (readModel_configured hlayers) framework
          exact ⟨.ok ⟨framework, source⟩, .program hbody hoption hlayers hprogram⟩
        · exact ⟨_, .framework hbody hoption hlayers (not_exists.mp hknown)⟩

/-- The framework that is asked for is in the body or in the session. -/
theorem exporting_congr {other : Request} (h : other.posted = request.posted)
    (answer : Value → Program → Response) :
    exporting answer defaults other visit = exporting answer defaults request visit := by
  have hjson : other.json? = request.json? := by simp only [Request.json?, h]
  have hpayload : payload other = payload request := by simp only [payload, hjson]
  have hsetting : setting defaults other visit .framework =
      setting defaults request visit .framework := rfl
  simp only [exporting, hpayload, hsetting]

/-- The ids that are drawn are those of the layers, whatever is answered. -/
theorem exporting_ids (answer other : Value → Program → Response) :
    (exporting answer defaults request visit).2 = (exporting other defaults request visit).2 := by
  unfold exporting
  split
  · rfl
  · split
    · rfl
    · split <;> rfl

end Outcomes

section Requests

variable [Machine] {defaults : Defaults} {request : Request}

theorem respond_code (h : request.Asks "POST" .code) (visit : Visit) :
    respond defaults request visit =
      (.ofResult (codeAnswer defaults request visit).1,
        ⟨visit.session, (codeAnswer defaults request visit).2⟩) :=
  respond_of_asks h defaults visit

theorem respond_download (h : request.Asks "POST" .download) (visit : Visit) :
    respond defaults request visit =
      (.ofResult (downloadAnswer defaults request visit).1,
        ⟨visit.session, (downloadAnswer defaults request visit).2⟩) :=
  respond_of_asks h defaults visit

end Requests

/-- A preview and a download of the same body come to the same: the source of one program, which the
preview shows with the name of its framework and of its file and which the download hands out under
that file name, or one fault. -/
theorem preview_download_agree [Machine] {preview download : Request}
    (hpreview : preview.Asks "POST" .code) (hdownload : download.Asks "POST" .download)
    (hbody : download.posted = preview.posted) (defaults : Defaults) (visit : Visit) :
    (respond defaults download visit).2 = (respond defaults preview visit).2 ∧
      ∃ result, Exports defaults preview visit result ∧
        match result with
        | .ok program =>
          (respond defaults preview visit).1 = .json 200 (.obj [
            ("success", .bool true),
            ("framework", .str program.framework.name),
            ("filename", .str program.framework.filename),
            ("code", .str program.source)]) ∧
          (respond defaults download visit).1 = .text "text/plain" program.source
            (some ("attachment; filename=" ++ program.framework.filename))
        | .error fault =>
          (respond defaults preview visit).1 = .ofResult (.error fault) ∧
          (respond defaults download visit).1 = .ofResult (.error fault) ∧
          (Response.ofResult (.error fault)).status ≠ 200 := by
  obtain ⟨result, hresult⟩ := exists_exports defaults preview visit
  rw [respond_code hpreview, respond_download hdownload, codeAnswer_eq, downloadAnswer_eq,
    exporting_congr hbody, hresult.exporting, hresult.exporting]
  refine ⟨congrArg (Visit.mk visit.session) (exporting_ids _ _), result, hresult, ?_⟩
  cases result with
  | ok program => exact ⟨rfl, rfl⟩
  | error fault => exact ⟨rfl, rfl, Response.status_ofResult_error fault⟩

/-- A body that leaves the framework to the session. -/
def savedFrameworkBody : Members := [
  ("framework", .str ""),
  ("layers", .list [.obj [("type", .str "relu")]])]

def savedFrameworkVisit : Visit := ⟨[("framework", .str "tensorflow")], .counting⟩

attribute [local instance] Machine.small

theorem preview_download_agree_savedFramework :
    (sending "POST" .code (.obj savedFrameworkBody)).Asks "POST" .code ∧
      (sending "POST" .download (.obj savedFrameworkBody)).Asks "POST" .download ∧
      ∃ program : Program, program.framework = .tensorflow ∧
        (respond .standard (sending "POST" .code (.obj savedFrameworkBody))
          savedFrameworkVisit).1 = .json 200 (.obj [
            ("success", .bool true),
            ("framework", .str "tensorflow"),
            ("filename", .str "layercal_tensorflow.py"),
            ("code", .str program.source)]) ∧
        (respond .standard (sending "POST" .download (.obj savedFrameworkBody))
          savedFrameworkVisit).1 = .text "text/plain" program.source
            (some "attachment; filename=layercal_tensorflow.py") := by
  have hpreview : (sending "POST" .code (.obj savedFrameworkBody)).Asks "POST" .code := by
    decide +kernel
  have hdownload : (sending "POST" .download (.obj savedFrameworkBody)).Asks "POST" .download := by
    decide +kernel
  refine ⟨hpreview, hdownload, ?_⟩
  have hpayload : payload (sending "POST" .code (.obj savedFrameworkBody)) =
      .ok savedFrameworkBody := eq_ok_of_toOption (by decide +kernel)
  have hmodel : readModel savedFrameworkBody savedFrameworkVisit.ids =
      (.ok ⟨[.ofKind "1" .relu]⟩, _) := rfl
  obtain ⟨source, hprogram⟩ := Program.ofLayers_ok (readModel_configured hmodel) .tensorflow
  have hexports : Exports .standard (sending "POST" .code (.obj savedFrameworkBody))
      savedFrameworkVisit (.ok ⟨.tensorflow, source⟩) := .program hpayload rfl hmodel hprogram
  obtain ⟨-, result, hresult, hanswers⟩ :=
    preview_download_agree hpreview hdownload rfl .standard savedFrameworkVisit
  obtain rfl := hresult.unique hexports
  exact ⟨⟨.tensorflow, source⟩, rfl, hanswers⟩

end LayerStack.Service
