import Mathlib
import SpreadWatch.Files
import SpreadWatch.Proofs.Failure

/-!
Writing a file and reading it again. A text that is put at the place of a path is what stands at the
path afterwards, and can be opened and read there; nothing on the way to the place changes.
-/

namespace SpreadWatch

theorem Text.unify_line_ends_plain {chars : List Char} (plain : ∀ c ∈ chars, c ≠ '\r') :
    Text.unifyLineEnds chars = chars := by
  induction chars with
  | nil => rfl
  | cons c rest induction =>
      have first := plain c (by simp)
      have others := induction fun d member => plain d (by simp [member])
      rw [Text.unifyLineEnds]
      · rw [others]
      · rintro tail rfl
        exact absurd rfl first
      · rintro rfl
        exact absurd rfl first

namespace Files

variable {files next : Files} {path : FilePath} {place other : List String} {entry : FileEntry}

theorem entry_put_self (inside : place ≠ []) :
    entry? (files.put place entry) place = some entry := by
  simp [ entry?, put, inside]

theorem lookup_filter_other (apart : other ≠ place) (entries : List (List String × FileEntry)) :
    (entries.filter fun known => known.1 != place).lookup other = entries.lookup other := by
  induction entries with
  | nil => rfl
  | cons known rest induction =>
      by_cases here : known.1 = place
      · have differs : (other == known.1) = false := by simpa [here] using apart
        rw [List.filter_cons_of_neg (by simpa using here), induction, List.lookup_cons, differs]
      · rw [List.filter_cons_of_pos (by simpa using here), List.lookup_cons, List.lookup_cons,
          induction]

theorem entry_put_other (apart : other ≠ place) :
    entry? (files.put place entry) other = files.entry? other := by
  have differs : (other == place) = false := by simpa using apart
  rw [ entry?, entry?, put, List.lookup_cons, differs, lookup_filter_other apart]

/-- Following a path asks for directories only, so it comes to the same place if they stay. -/
theorem follow_kept
    (kept : ∀ place, files.entry? place = some .directory → next.entry? place = some .directory)
    {start : List String} {parts : List String} (followed : files.follow start parts = .ok place) :
    next.follow start parts = .ok place := by
  induction parts generalizing start with
  | nil => exact followed
  | cons part rest induction =>
      unfold follow at followed ⊢
      cases here : files.entry? start with
      | none =>
          rw [here] at followed
          cases followed
      | some entry =>
          rw [here] at followed
          cases entry with
          | file text => cases followed
          | directory =>
              rw [kept start here]
              dsimp only at followed ⊢
              split_ifs at followed ⊢
              · exact induction followed
              · exact induction followed

/-- A path that can be opened for writing: its place is a file, or nothing in a directory. -/
inductive Opens (files : Files) (path : FilePath) (place : List String) : String → Prop
  | file {text : String} (named : checkName path = .ok ()) (found : files.placeOf path = .ok place)
      (here : files.entry? place = some (.file text)) : Opens files path place text
  | nothing (named : checkName path = .ok ()) (found : files.placeOf path = .ok place)
      (here : files.entry? place = none)
      (above : files.entry? place.dropLast = some .directory) : Opens files path place ""

theorem failed_eq_ok {α : Type} {result : Except FileProblem α} {a : α} :
    failed path result = .ok a ↔ result = .ok a := by
  cases result <;> simp [failed, Except.mapError]

theorem open_place_iff {text : String} :
    files.openPlace path = .ok (place, text) ↔ Opens files path place text := by
  constructor
  · intro opened
    obtain ⟨_, named, afterName⟩ := bind_eq_ok opened
    obtain ⟨there, placed, answered⟩ := bind_eq_ok afterName
    have found := failed_eq_ok.mp placed
    split at answered
    · cases answered
    · rename_i here
      cases answered
      exact .file named found here
    · rename_i here above
      cases answered
      exact .nothing named found here above
    · cases answered
    · cases answered
  · intro opens
    cases opens with
    | file named found here =>
        simp only [openPlace, named, failed_eq_ok.mpr found, bind, Except.bind, here]
        rfl
    | nothing named found here above =>
        simp only [openPlace, named, failed_eq_ok.mpr found, bind, Except.bind, here, above]
        rfl

theorem Opens.inside {text : String} (opens : Opens files path place text) : place ≠ [] := by
  rintro rfl
  cases opens with
  | file _ _ here => cases here
  | nothing _ _ here _ => cases here

theorem Opens.named {text : String} (opens : Opens files path place text) :
    checkName path = .ok () := by
  cases opens with
  | file named _ _ => exact named
  | nothing named _ _ _ => exact named

theorem Opens.not_failed {text : String} {failure : Failure}
    (opens : Opens files path place text) : checkName path ≠ .error failure := by
  simp [opens.named]

theorem Opens.found {text : String} (opens : Opens files path place text) :
    files.placeOf path = .ok place := by
  cases opens with
  | file _ found _ => exact found
  | nothing _ found _ _ => exact found

theorem Opens.text_of_file {known text : String} (opens : Opens files path place known)
    (here : files.entry? place = some (.file text)) : known = text := by
  cases opens with
  | file _ _ there => simpa [here] using there.symm
  | nothing _ _ there _ =>
      rw [here] at there
      cases there

theorem Opens.unique {known text : String} (opens : Opens files path place known)
    (again : Opens files path place text) : known = text := by
  have first := open_place_iff.mpr opens
  rw [open_place_iff.mpr again] at first
  cases first
  rfl

/-- The place of a path that can be opened is not on the way there, since no directory is there. -/
theorem place_of_put {known text : String} (opens : Opens files path place known) :
    (files.put place (.file text)).placeOf path = .ok place := by
  have noDirectory : files.entry? place ≠ some .directory := by
    cases opens with
    | file _ _ here => simp [here]
    | nothing _ _ here _ => simp [here]
  have found := opens.found
  unfold placeOf at found ⊢
  split_ifs at found ⊢ with long
  refine follow_kept ?_ found
  intro other directory
  rw [entry_put_other, directory]
  rintro rfl
  exact noDirectory directory

theorem opens_put {known : String} (opens : Opens files path place known) (text : String) :
    Opens (files.put place (.file text)) path place text :=
  .file opens.named (place_of_put opens) (entry_put_self opens.inside)

theorem stat_of_file {text : String} (named : files.placeOf path = .ok place)
    (here : files.entry? place = some (.file text)) : files.stat path = .ok (.file text) := by
  simp only [stat, named, bind, Except.bind, here]
  rfl

/-- Reading sees line feeds only, so a text without carriage returns is read as it is. -/
theorem read_text_of_file {text : String} (named : checkName path = .ok ())
    (found : files.placeOf path = .ok place) (here : files.entry? place = some (.file text))
    (plain : ∀ c ∈ text.toList, c ≠ '\r') : files.readText path = .ok text := by
  simp only [readText, named, failed_eq_ok.mpr (stat_of_file found here), bind, Except.bind,
    Text.unify_line_ends_plain plain, String.ofList_toList]
  rfl

theorem stat_of_opens {text : String} (opens : Opens files path place text) (present : text ≠ "") :
    files.stat path = .ok (.file text) := by
  cases opens with
  | file _ found here => exact stat_of_file found here
  | nothing _ _ _ _ => exact absurd rfl present

end Files

end SpreadWatch
