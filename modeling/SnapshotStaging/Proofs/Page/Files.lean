import Mathlib.Data.String.Basic
import SnapshotStaging.PageStore

/-!
# Files of a directory of pages

A file is found by the path that its name leads to. Names without slashes lead to different paths, so among
files with such names a page is found by its name alone (`find?_eq`).
-/

namespace SnapshotStaging

open String

namespace Path

/-- A name that is one step of a path. -/
def IsStep (name : String) : Prop := '/' ∉ name.toList ∧ name ≠ "" ∧ name ≠ "."

instance (name : String) : Decidable (IsStep name) := inferInstanceAs (Decidable (_ ∧ _))

/-- Splitting goes on behind `l` without having found a slash. -/
theorem splitOnAux_of_notMem (l r : List Char) (h : '/' ∉ r) :
    (ofList (l ++ r)).splitOnAux "/" 0 ⟨utf8Len l⟩ 0 [] = [ofList (l ++ r)] := by
  induction r generalizing l with
  | nil =>
    have hwhole := extract_of_valid [] l []
    rw [splitOnAux, if_pos ((atEnd_of_valid _ _).2 rfl)]
    simpa using hwhole
  | cons c rest ih =>
    obtain ⟨hc, hrest⟩ := not_or.1 (mt List.mem_cons.2 h)
    have hslash : Pos.Raw.get "/" 0 = '/' := get_of_valid [] ['/']
    have hnext : (Pos.Raw.unoffsetBy ⟨utf8Len l⟩ 0).next (ofList (l ++ c :: rest)) = ⟨utf8Len (l ++ [c])⟩ := by
      simpa using next_of_valid l c rest
    have hmore : ¬ Pos.Raw.atEnd (ofList (l ++ c :: rest)) ⟨utf8Len l⟩ = true :=
      mt (atEnd_of_valid l (c :: rest)).1 (List.cons_ne_nil c rest)
    rw [splitOnAux, if_neg hmore, get_of_valid, hslash,
      if_neg (by simpa using Ne.symm hc), hnext]
    simpa using ih (l ++ [c]) hrest

theorem steps_of_isStep {name : String} (h : IsStep name) : steps name = [name] := by
  have hsplit : name.splitOn "/" = [name] := by
    rw [splitOn, if_neg (by decide)]
    simpa using splitOnAux_of_notMem [] name.toList h.1
  rw [steps, hsplit]
  simpa using h.2

/-- The path of a name in a directory: something in front of the name. -/
theorem exists_join_eq_append (directory : String) :
    ∃ before, ∀ name, IsStep name → join directory name = before ++ name := by
  refine ⟨root directory ++ if steps directory = [] then "" else "/".intercalate (steps directory) ++ "/", ?_⟩
  intro name hname
  have hslash : name.startsWith "/" = false := by
    rw [startsWith_string_eq_false_iff]
    rintro ⟨rest, hrest⟩
    exact hname.1 (hrest ▸ List.mem_append_left _ (by decide))
  rw [join, if_neg (by simp [hslash]), steps_of_isStep hname, ofSteps]
  by_cases hsteps : steps directory = []
  · simp [hsteps, hname.2.1]
  · rw [intercalate_append_of_ne_nil hsteps (by simp), if_neg hsteps]
    simp [hname.2.1, append_assoc]

/-- Different names lead to different paths. -/
theorem join_inj {directory a b : String} (ha : IsStep a) (hb : IsStep b) :
    join directory a = join directory b ↔ a = b := by
  obtain ⟨before, hbefore⟩ := exists_join_eq_append directory
  rw [hbefore a ha, hbefore b hb, append_right_inj]

end Path

/-- A file is found by its name. -/
theorem PageStore.find?_eq {s : PageStore} {name : String} (hfiles : ∀ f ∈ s.files, Path.IsStep f.1)
    (hname : Path.IsStep name) : s.find? name = (s.files.find? fun f => f.1 = name).map (·.2) := by
  have hfind (files : List (String × List UInt8)) (h : ∀ f ∈ files, Path.IsStep f.1) :
      files.find? (fun f => s.pathOf f.1 = s.pathOf name) = files.find? fun f => f.1 = name := by
    induction files with
    | nil => rfl
    | cons f rest ih =>
      have hiff : s.pathOf f.1 = s.pathOf name ↔ f.1 = name := Path.join_inj (h f (List.mem_cons_self ..)) hname
      simp only [List.find?_cons, hiff, ih fun f hf => h f (List.mem_cons_of_mem _ hf)]
  rw [PageStore.find?, ← hfind s.files hfiles]

end SnapshotStaging
