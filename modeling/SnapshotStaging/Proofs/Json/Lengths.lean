import SnapshotStaging.Proofs.Json.Printing

/-!
# Lengths of written values

A layout adds blanks and line breaks to a text and takes nothing from it, so no text of a value is shorter than the
one without blanks.

Main result: `length_compact_le`.
-/

namespace SnapshotStaging

namespace Layout

variable {κ : Type} [Letter κ] (l : Layout) (depth : Nat) (rest : List κ)

theorem length_le_newLine (width : Nat) : rest.length < (newLine width depth rest).length := by
  rw [newLine, List.length_cons, List.length_append]
  omega

theorem length_le_edge : rest.length ≤ (l.edge depth rest).length := by
  cases l with
  | indented width => exact Nat.le_of_lt (length_le_newLine depth rest width)
  | _ => exact Nat.le_refl _

theorem length_lt_between : rest.length < (l.between depth rest).length := by
  cases l with
  | indented width => exact Nat.lt_succ_of_lt (length_le_newLine depth rest width)
  | spaced => exact Nat.lt_succ_of_lt (Nat.lt_succ_self _)
  | compact => exact Nat.lt_succ_self _

theorem length_lt_colon : rest.length < (l.colon rest).length := by
  cases l with
  | compact => exact Nat.lt_succ_self _
  | _ => exact Nat.lt_succ_of_lt (Nat.lt_succ_self _)

end Layout

namespace Json

variable {σ κ : Type} [Script σ κ] {l : Layout} {depth depth' : Nat} {rest rest' : List κ}

theorem length_writeString_le (s : σ) (h : rest.length ≤ rest'.length) :
    (writeString s rest).length ≤ (writeString s rest').length := by
  rw [Lexer.writeString_append s rest, Lexer.writeString_append s rest', List.length_append, List.length_append]
  omega

/-- A name, a colon and what follows. -/
theorem length_writeName_le (name : σ) (h : rest.length ≤ rest'.length) :
    (writeString name (Layout.compact.colon rest)).length ≤ (writeString name (l.colon rest')).length :=
  length_writeString_le name (Nat.lt_of_le_of_lt h (l.length_lt_colon rest'))

mutual

/-- Whatever follows, if it is no longer, the text without blanks is no longer than the text of a layout. -/
theorem length_write_le : ∀ (v : Json σ) {depth depth' : Nat} {rest rest' : List κ}, rest.length ≤ rest'.length →
    (v.write .compact depth rest).length ≤ (v.write l depth' rest').length
  | .null, _, _, _, _, h => by simpa [write] using h
  | .bool true, _, _, _, _, h => by simpa [write] using h
  | .bool false, _, _, _, _, h => by simpa [write] using h
  | .int n, _, _, _, _, h => by simpa [write] using h
  | .float x, _, _, _, _, h => by simpa [write] using h
  | .str s, _, _, _, _, h => by
    rw [write, write]
    exact length_writeString_le s h
  | .arr [], _, _, _, _, h => by simpa [write] using h
  | .arr (v :: items), _, depth', rest, rest', h => by
    rw [write, write]
    have hclose : (Letter.ofChar ']' :: rest).length ≤ (l.edge depth' (Letter.ofChar ']' :: rest')).length :=
      Nat.le_trans (m := (Letter.ofChar ']' :: rest').length) (Nat.succ_le_succ h) (l.length_le_edge ..)
    exact Nat.succ_le_succ (Nat.le_trans (length_write_le v (length_writeItems_le items hclose))
      (l.length_le_edge ..))
  | .obj [], _, _, _, _, h => by simpa [write] using h
  | .obj ((name, v) :: members), _, depth', rest, rest', h => by
    rw [write, write]
    have hclose : (Letter.ofChar '}' :: rest).length ≤ (l.edge depth' (Letter.ofChar '}' :: rest')).length :=
      Nat.le_trans (m := (Letter.ofChar '}' :: rest').length) (Nat.succ_le_succ h) (l.length_le_edge ..)
    exact Nat.succ_le_succ (Nat.le_trans
      (length_writeName_le name (length_write_le v (length_writeMembers_le members hclose))) (l.length_le_edge ..))

theorem length_writeItems_le : ∀ (items : List (Json σ)) {depth depth' : Nat} {rest rest' : List κ},
    rest.length ≤ rest'.length →
      (writeItems .compact depth items rest).length ≤ (writeItems l depth' items rest').length
  | [], _, _, _, _, h => by simpa [writeItems] using h
  | v :: items, _, _, _, _, h => by
    rw [writeItems, writeItems]
    exact Nat.lt_of_le_of_lt (length_write_le v (length_writeItems_le items h)) (l.length_lt_between ..)

theorem length_writeMembers_le : ∀ (members : List (σ × Json σ)) {depth depth' : Nat} {rest rest' : List κ},
    rest.length ≤ rest'.length →
      (writeMembers .compact depth members rest).length ≤ (writeMembers l depth' members rest').length
  | [], _, _, _, _, h => by simpa [writeMembers] using h
  | (name, v) :: members, _, _, _, _, h => by
    rw [writeMembers, writeMembers]
    exact Nat.lt_of_le_of_lt (length_writeName_le name (length_write_le v (length_writeMembers_le members h)))
      (l.length_lt_between ..)

end

/-- **The text without blanks is the shortest**: no layout of a value has fewer letters. -/
theorem length_compact_le (v : Json σ) (l : Layout) :
    (Script.letters v.compact).length ≤ (Script.letters (v.render l)).length := by
  rw [compact, render, render, Script.letters_ofLetters, Script.letters_ofLetters]
  exact length_write_le v (Nat.le_refl _)

end Json

end SnapshotStaging
