import LayerStack.Proofs.Summaries

/-! What a summary takes from the shape.  The count of a layer reads the sizes of its kind, each
filled in by the default of the kind if it is open; everything else in the summary is settled by the
layers alone. -/

namespace LayerStack

/-- Shapes that have the same sizes for what a kind reads, when its defaults are filled in. -/
def Kind.Agree (kind : Kind) (a b : Shape) : Prop :=
  ∀ d, kind.reads d = true → (a.resolve kind).size? d = (b.resolve kind).size? d

namespace Kind.Agree

variable {kind : Kind} {a b : Shape}

theorem of_size? (h : ∀ d, kind.reads d = true → a.size? d = b.size? d) : kind.Agree a b := by
  intro d hd
  simp only [Shape.resolve, h d hd]

/-- A size that is open is as good as the default. -/
theorem set_default {d : Dimension} {n : Int} (hopen : a.size? d = none)
    (hdefault : kind.defaultSize? d = some n) : kind.Agree a (a.set d n) := by
  intro e _
  by_cases he : e = d
  · subst he
    simp [Shape.resolve, hopen, hdefault]
  · simp [Shape.resolve, Shape.size?_set_of_ne a n he]

/-- Shapes that differ in the spatial size at most agree for all but batch normalization. -/
theorem of_ne_spatialSize (h : ∀ d, d ≠ .spatialSize → a.size? d = b.size? d)
    (hkind : kind ≠ .batchnorm) : kind.Agree a b := by
  refine of_size? fun d hd => h d ?_
  rintro rfl
  exact hkind (reads_spatialSize_iff.mp hd)

theorem sizeFor_eq (h : kind.Agree a b) {d : Dimension} (hd : kind.reads d = true) :
    a.sizeFor kind d = b.sizeFor kind d := by
  rw [Shape.sizeFor, Shape.sizeFor, h d hd]

theorem operationsOf_eq (h : kind.Agree a b) (config : Config) :
    kind.operationsOf config a = kind.operationsOf config b := by
  have hsize := fun d (hd : kind.reads d = true) => h.sizeFor_eq hd
  cases kind <;> simp only [operationsOf]
  case conv2d => rw [hsize .inputSize rfl]
  case lstm | gru | transformer | attention => rw [hsize .seqLen rfl]
  case batchnorm => rw [hsize .batchSize rfl, hsize .spatialSize rfl]
  case layernorm => rw [hsize .batchSize rfl, hsize .seqLen rfl]
  case maxpool2d | avgpool2d => rw [hsize .inputSize rfl, hsize .channels rfl]

theorem rowOf_eq {layer : Layer} (h : layer.kind.Agree a b) (whole : Int) :
    Summary.rowOf a whole layer = Summary.rowOf b whole layer := by
  rw [Summary.rowOf, Summary.rowOf, Layer.operationCount, Layer.operationCount, h.operationsOf_eq]

end Kind.Agree

namespace Summary

variable {layers : List Layer} {a b : Shape}

theorem describe_eq (h : ∀ layer ∈ layers, layer.kind.Agree a b) :
    describe layers a = describe layers b := by
  have hoperations : layers.map (fun layer => layer.operationCount a) =
      layers.map fun layer => layer.operationCount b :=
    List.map_congr_left fun layer hlayer => (h layer hlayer).operationsOf_eq layer.config
  simp only [describe, hoperations, Summary.mk.injEq, true_and]
  exact List.map_congr_left fun layer hlayer => (h layer hlayer).rowOf_eq _

/-- What relates the rows of every layer relates the rows of the summaries. -/
theorem forall₂_rows {R : SummaryRow → SummaryRow → Prop}
    (h : ∀ layer ∈ layers, ∀ whole, R (rowOf a whole layer) (rowOf b whole layer)) :
    List.Forall₂ R (describe layers a).rows (describe layers b).rows :=
  List.forall₂_map_left_iff.mpr (List.forall₂_map_right_iff.mpr
    (List.forall₂_same.mpr fun layer hlayer => h layer hlayer _))

/-- Two summaries of the same layers are equal if the shapes agree for every layer, and in any case
they differ in the operations only, in the rows of the layers for which the shapes do not agree. -/
theorem shape_reads [Machine] (h : ∀ layer ∈ layers, layer.config.Complete layer.kind)
    (a b : Shape) :
    ∃ s t, ofLayers layers a = .ok s ∧ ofLayers layers b = .ok t ∧
      ((∀ layer ∈ layers, layer.kind.Agree a b) → s = t) ∧
      s.totalParameters = t.totalParameters ∧
      List.Forall₂ (fun layer row => row.id = layer.id ∧ row.kind = layer.kind) layers s.rows ∧
      List.Forall₂ (fun row other => row = { other with operations := row.operations } ∧
        (row.kind.Agree a b → row = other)) s.rows t.rows ∧
      ((∀ d, d ≠ .spatialSize → a.size? d = b.size? d) →
        List.Forall₂ (fun row other => row.kind ≠ .batchnorm → row = other) s.rows t.rows) ∧
      ∀ d n, a.size? d = none → b = a.set d n →
        List.Forall₂ (fun row other => row.kind.defaultSize? d = some n → row = other)
          s.rows t.rows ∧
        ((∀ layer ∈ layers, layer.kind.defaultSize? d = some n) → s = t) := by
  refine ⟨_, _, ofLayers_eq h a, ofLayers_eq h b, describe_eq, rfl, ?_, ?_, ?_, ?_⟩
  · exact List.forall₂_map_right_iff.mpr (List.forall₂_same.mpr fun _ _ => ⟨rfl, rfl⟩)
  · exact forall₂_rows fun layer _ whole => ⟨rfl, fun hagree => hagree.rowOf_eq whole⟩
  · intro hsame
    exact forall₂_rows fun layer _ whole hkind =>
      Kind.Agree.rowOf_eq (.of_ne_spatialSize hsame hkind) whole
  · rintro d n hopen rfl
    exact ⟨forall₂_rows fun layer _ whole hdefault =>
        Kind.Agree.rowOf_eq (.set_default hopen hdefault) whole,
      fun hdefault => describe_eq fun layer hlayer => .set_default hopen (hdefault layer hlayer)⟩

/-- A layer for each way in which a kind reads a shape. -/
def shapedLayers : List Layer := [
  .ofKind "a" .batchnorm, .ofKind "b" .layernorm, .ofKind "c" .maxpool2d, .ofKind "d" .gru,
  .ofKind "e" .relu]

theorem complete_shapedLayers : ∀ layer ∈ shapedLayers, layer.config.Complete layer.kind := by
  decide

attribute [local instance] Machine.small

/-- A spatial size of zero is a size that is given, and one that only the first layer reads. -/
theorem shape_reads_shapedLayers :
    (∀ layer ∈ shapedLayers, layer.config.Complete layer.kind) ∧
      ∃ s t, ofLayers shapedLayers .empty = .ok s ∧
        ofLayers shapedLayers (Shape.empty.set .spatialSize 0) = .ok t ∧
        s.totalParameters = t.totalParameters ∧
        List.Forall₂ (fun row other => row.kind ≠ .batchnorm → row = other) s.rows t.rows := by
  obtain ⟨s, t, hs, ht, -, htotal, -, -, hrows, -⟩ :=
    shape_reads complete_shapedLayers .empty (Shape.empty.set .spatialSize 0)
  exact ⟨complete_shapedLayers, s, t, hs, ht, htotal,
    hrows fun d hd => (Shape.size?_set_of_ne .empty 0 hd).symm⟩

end Summary

end LayerStack
