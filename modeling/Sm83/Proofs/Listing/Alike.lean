import Mathlib.Data.List.Forall2
import Sm83.Proofs.Listing.Rows

/-!
# Listings that are alike

Two listings with the same labels are compared step by step. Where the steps lie in the same places
and only some items differ, the texts are the same row by row, but for the rows of these items:
`Listing.text_sameBut`.
-/

namespace Sm83

/-- The texts are the same, row by row, but for rows that differ in a given way. -/
def Text.SameBut (differs : String → String → Prop) (text text' : String) : Prop :=
  ∃ rows rows' last, text = unlines rows ++ last ∧ text' = unlines rows' ++ last ∧
    List.Forall₂ (fun row row' => row = row' ∨ differs row row') rows rows'

/-- Two steps are in the same place and stand apart alike; their items correspond. -/
structure Step.Alike (corresponds : Nat → Item → Item → Prop) (step step' : Step) : Prop where
  offset_eq : step'.offset = step.offset
  apartBefore_eq : step'.apartBefore = step.apartBefore
  apartAfter_eq : step'.apartAfter = step.apartAfter
  items : corresponds step.offset step.item step'.item

variable {corresponds : Nat → Item → Item → Prop} {differs : String → String → Prop}
  {labels : LabelMap} {layout : Layout}

/-- Where items correspond, their rows are the same or differ in the given way. -/
def ShownAlike (corresponds : Nat → Item → Item → Prop) (differs : String → String → Prop)
    (labels : LabelMap) (layout : Layout) : Prop :=
  ∀ offset item item', corresponds offset item item' →
    item.text labels layout = item'.text labels layout ∨
      differs (item.text labels layout) (item'.text labels layout)

theorem forall₂_same_rows (rows : List String) :
    List.Forall₂ (fun row row' => row = row' ∨ differs row row') rows rows :=
  List.forall₂_same.mpr fun _ _ => .inl rfl

theorem Step.Alike.rows (shown : ShownAlike corresponds differs labels layout) {step step' : Step}
    (alike : Step.Alike corresponds step step') :
    List.Forall₂ (fun row row' => row = row' ∨ differs row row') (step.rows labels layout)
      (step'.rows labels layout) := by
  have sameDefinitions : step'.definitions labels = step.definitions labels := by
    rw [Step.definitions, Step.definitions, alike.offset_eq]
  rw [Step.rows_eq, Step.rows_eq, sameDefinitions]
  exact List.rel_append (forall₂_same_rows _) (.cons (shown _ _ _ alike.items) .nil)

theorem Step.rowsOf_alike (shown : ShownAlike corresponds differs labels layout)
    {steps steps' : List Step} (alike : List.Forall₂ (Step.Alike corresponds) steps steps')
    (gap : Bool) :
    List.Forall₂ (fun row row' => row = row' ∨ differs row row')
      (Step.rowsOf labels layout gap steps) (Step.rowsOf labels layout gap steps') := by
  induction alike generalizing gap with
  | nil => exact .nil
  | cons here _ ih =>
      simp only [Step.rowsOf, here.apartBefore_eq, here.apartAfter_eq]
      exact List.rel_append (List.rel_append (forall₂_same_rows _) (here.rows shown)) (ih _)

/-- Listings with the same start, end and labels have the same text, but for the rows of items that
differ. -/
theorem Listing.text_sameBut {listing listing' : Listing}
    (sameStart : listing'.start = listing.start)
    (sameEnd : listing'.endOffset = listing.endOffset)
    (sameLabels : listing'.labels = listing.labels)
    (shown : ShownAlike corresponds differs listing.labels layout)
    (alike : List.Forall₂ (Step.Alike corresponds) listing.steps.toList listing'.steps.toList) :
    Text.SameBut differs (listing.text layout) (listing'.text layout) := by
  have sameTrailer : listing'.trailer layout = listing.trailer layout := by
    rw [trailer, trailer, sameEnd]
  have sameHeader : listing.headerRow = listing'.headerRow := by
    rw [headerRow, headerRow, sameStart]
  refine ⟨_, _, listing.trailer layout, listing.text_eq_unlines layout,
    sameTrailer ▸ listing'.text_eq_unlines layout, ?_⟩
  rw [rows, rows, rowsThrough, rowsThrough, sameLabels]
  exact .cons (.inl sameHeader) (Step.rowsOf_alike shown alike false)

end Sm83
