import Mathlib
import SpreadWatch.Market

/-!
The order of pairs is linear, so a sorted list of pairs is determined by the pairs that are in it.
-/

namespace SpreadWatch.Pair

theorem before_iff (a b : Pair) : a.before b = true ↔
    a.long < b.long ∨ a.long = b.long ∧
      (a.short < b.short ∨ a.short = b.short ∧ a.instrument ≤ b.instrument) := by
  rw [before]
  by_cases long : a.long = b.long
  · by_cases short : a.short = b.short
    · simp [long, short]
    · simp [long, short]
  · simp [long]

theorem before_trans (a b c : Pair) (first : a.before b = true) (second : b.before c = true) :
    a.before c = true := by
  rw [before_iff] at first second ⊢
  rcases first with long | ⟨long, first⟩
  · rcases second with longer | ⟨same, -⟩
    · exact .inl (long.trans longer)
    · exact .inl (same ▸ long)
  · rcases second with longer | ⟨same, second⟩
    · exact .inl (long ▸ longer)
    · refine .inr ⟨long.trans same, ?_⟩
      rcases first with short | ⟨short, first⟩
      · rcases second with shorter | ⟨same, -⟩
        · exact .inl (short.trans shorter)
        · exact .inl (same ▸ short)
      · rcases second with shorter | ⟨same, second⟩
        · exact .inl (short ▸ shorter)
        · exact .inr ⟨short.trans same, first.trans second⟩

theorem before_total (a b : Pair) : (a.before b || b.before a) = true := by
  rw [Bool.or_eq_true, before_iff, before_iff]
  rcases lt_trichotomy a.long b.long with long | long | long
  · exact .inl (.inl long)
  · rcases lt_trichotomy a.short b.short with short | short | short
    · exact .inl (.inr ⟨long, .inl short⟩)
    · rcases le_total a.instrument b.instrument with instrument | instrument
      · exact .inl (.inr ⟨long, .inr ⟨short, instrument⟩⟩)
      · exact .inr (.inr ⟨long.symm, .inr ⟨short.symm, instrument⟩⟩)
    · exact .inr (.inr ⟨long.symm, .inl short⟩)
  · exact .inr (.inl long)

theorem before_antisymm {a b : Pair} (first : a.before b = true) (second : b.before a = true) :
    a = b := by
  rw [before_iff] at first second
  rcases first with long | ⟨long, first⟩
  · rcases second with longer | ⟨same, -⟩
    · exact absurd (long.trans longer) (lt_irrefl _)
    · exact absurd long (same ▸ lt_irrefl _)
  · rcases second with longer | ⟨-, second⟩
    · exact absurd longer (long ▸ lt_irrefl _)
    · rcases first with short | ⟨short, first⟩
      · rcases second with shorter | ⟨same, -⟩
        · exact absurd (short.trans shorter) (lt_irrefl _)
        · exact absurd short (same ▸ lt_irrefl _)
      · rcases second with shorter | ⟨-, second⟩
        · exact absurd shorter (short ▸ lt_irrefl _)
        · cases a
          cases b
          cases long
          cases short
          cases first.antisymm second
          rfl

def Below (a b : Pair) : Prop :=
  a.long < b.long ∨ a.long = b.long ∧
    (a.short < b.short ∨ a.short = b.short ∧ a.instrument < b.instrument)

theorem below_of_before {a b : Pair} (before : a.before b = true) (different : a ≠ b) :
    a.Below b := by
  rcases (before_iff a b).mp before with long | ⟨long, short | ⟨short, instrument⟩⟩
  · exact .inl long
  · exact .inr ⟨long, .inl short⟩
  · refine .inr ⟨long, .inr ⟨short, lt_of_le_of_ne instrument fun same => different ?_⟩⟩
    cases a
    cases b
    cases long
    cases short
    cases same
    rfl

theorem sort_pairwise (pairs : List Pair) :
    (sort pairs).Pairwise fun a b => a.before b = true :=
  List.pairwise_mergeSort before_trans before_total pairs

theorem sort_perm (pairs : List Pair) : (sort pairs).Perm pairs := List.mergeSort_perm pairs before

theorem sort_increasing {pairs : List Pair} (once : pairs.Nodup) :
    (sort pairs).Pairwise Below := by
  have sortedOnce : (sort pairs).Nodup := (sort_perm pairs).nodup_iff.mpr once
  exact (sort_pairwise pairs).imp₂ (fun _ _ => below_of_before) sortedOnce

/-- Lists of the same pairs, each once, are sorted alike. -/
theorem sort_eq_of_same_members {first second : List Pair} (firstOnce : first.Nodup)
    (secondOnce : second.Nodup) (same : ∀ pair, pair ∈ first ↔ pair ∈ second) :
    sort first = sort second := by
  have permuted : first.Perm second := (List.perm_ext_iff_of_nodup firstOnce secondOnce).mpr same
  exact List.Perm.eq_of_pairwise (fun _ _ _ _ => before_antisymm) (sort_pairwise first)
    (sort_pairwise second) ((sort_perm first).trans (permuted.trans (sort_perm second).symm))

end SpreadWatch.Pair
