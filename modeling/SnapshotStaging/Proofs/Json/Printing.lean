import SnapshotStaging.Json.Printer
import SnapshotStaging.Proofs.Json.Tree
import SnapshotStaging.Proofs.Number.Printing

/-!
# Written values

A value is written as the tree of its scalars (`Json.tree`), whatever the layout: blanks and line breaks give
no token. What is written in front of a text goes on being read as before when that text cannot continue a
number (`Continues`).

Main result `Json.readWithin_write`: a value whose objects repeat no name is read back from its text in every
layout, members in their order, where nothing in it goes beyond the limits. So two such values with one text are one
value (`Json.render_inj`).
-/

namespace SnapshotStaging

namespace Json

variable {σ : Type}

mutual

/-- A value as a tree over its scalars. -/
def tree : Json σ → Tree (Json σ) σ
  | .arr items => .arr (itemTrees items)
  | .obj members => .obj (memberTrees members)
  | v => .leaf v

def itemTrees : List (Json σ) → List (Tree (Json σ) σ)
  | [] => []
  | v :: items => v.tree :: itemTrees items

def memberTrees : List (σ × Json σ) → List (σ × Tree (Json σ) σ)
  | [] => []
  | (name, v) :: members => (name, v.tree) :: memberTrees members

end

section Value

variable [DecidableEq σ] {f : Json σ → Json σ}

theorem put_of_notMem {name : σ} {v : Json σ} {members : List (σ × Json σ)}
    (h : name ∉ members.map Prod.fst) : put name v members = members ++ [(name, v)] := by
  induction members with
  | nil => rfl
  | cons m rest ih =>
    obtain ⟨n, w⟩ := m
    simp only [List.map_cons, List.mem_cons, not_or] at h
    rw [put, if_neg (Ne.symm h.1), ih h.2, List.cons_append]

mutual

/-- A value is what its tree stands for. -/
theorem value_tree (hf : ∀ v : Json σ, v.isContainer = false → f v = v) : ∀ v : Json σ, v.Distinct → v.tree.value f = v
  | .arr items, h => by rw [tree, Tree.value, values_itemTrees hf items h]
  | .obj members, h => by
    rw [tree, Tree.value, memberValues_memberTrees hf members [] h.1 h.2, List.nil_append]
  | .null, _ => hf _ rfl
  | .bool _, _ => hf _ rfl
  | .int _, _ => hf _ rfl
  | .float _, _ => hf _ rfl
  | .str _, _ => hf _ rfl

theorem values_itemTrees (hf : ∀ v : Json σ, v.isContainer = false → f v = v) :
    ∀ items : List (Json σ), DistinctItems items → Tree.values f (itemTrees items) = items
  | [], _ => rfl
  | v :: items, h => by rw [itemTrees, Tree.values, value_tree hf v h.1, values_itemTrees hf items h.2]

/-- Members with new names are put at the end one after another. -/
theorem memberValues_memberTrees (hf : ∀ v : Json σ, v.isContainer = false → f v = v) :
    ∀ members held : List (σ × Json σ), ((held ++ members).map Prod.fst).Nodup → DistinctMembers members →
      Tree.memberValues f held (memberTrees members) = held ++ members
  | [], held, _, _ => by rw [memberTrees, Tree.memberValues, List.append_nil]
  | (name, v) :: members, held, hn, h => by
    have hnew : name ∉ held.map Prod.fst := by
      rw [List.map_append, List.nodup_append] at hn
      intro hmem
      exact hn.2.2 name hmem name (by simp) rfl
    have hrest : ((held ++ [(name, v)] ++ members).map Prod.fst).Nodup := by
      rwa [List.append_assoc, List.singleton_append]
    rw [memberTrees, Tree.memberValues, value_tree hf v h.1, put_of_notMem hnew,
      memberValues_memberTrees hf members _ hrest h.2, List.append_assoc, List.singleton_append]

end

end Value

/-- Why a scalar is refused where it is read at a depth, if it is. -/
def scalarFault? (limits : Limits) (range : FloatRange) (depth : Nat) : Json σ → Option ReadError
  | .int n => Reader.atomFault? limits range depth (.int n)
  | .float (.finite _ _) =>
    match range with
    | .any => none
    | .finite => if limits.admits (Reader.calls depth + 2) then none else some .exhausted
  | .float x => Reader.atomFault? limits range depth (.special x)
  | _ => none

/-- Why the text of a value is refused, if it is: the reason of the first opening or scalar that is. -/
def fault? (limits : Limits) (range : FloatRange) (v : Json σ) : Option ReadError :=
  (v.tree.pieces 0).findSome? fun p =>
    match p.2 with
    | none => Reader.openingFault? limits p.1
    | some a => a.scalarFault? limits range p.1

theorem fault?_unlimited (range : FloatRange) (v : Json σ) : v.fault? .unlimited range = none := by
  refine List.findSome?_eq_none_iff.2 fun p _ => ?_
  obtain ⟨depth, _ | a⟩ := p
  · rfl
  · cases a with
    | float x => cases x <;> cases range <;> rfl
    | _ => rfl

end Json

namespace Lexer

variable {σ κ : Type} [Script σ κ]

/-! ## Text in front of other text -/

/-- A text that is read as `us` and does not continue a number before it. -/
structure Continues (ds : List κ) (us : List (Token σ)) : Prop where
  reads : Reads ds us
  delimited : Delimited (glyphs ds)

theorem Continues.nil : Continues ([] : List κ) ([] : List (Token σ)) := ⟨.nil, delimited_nil⟩

theorem Continues.cons {c : Char} {t : Token σ} {ds : List κ} {us : List (Token σ)}
    (ht : Leads .text .idle [Letter.ofChar c] [t] .idle) (hc : endsNumber (.char c) = true) (hd : Reads ds us) :
    Continues (Letter.ofChar c :: ds) (t :: us) :=
  ⟨ht.append_reads hd, delimited_ofChar hc ds⟩

theorem Reads.continue {cs ds : List κ} {ts us : List (Token σ)} (h : Reads cs ts) (hd : Continues ds us) :
    Reads (cs ++ ds) (ts ++ us) := by
  cases ds with
  | nil =>
    intro done rest hr
    have hnext := hd.reads (ts.reverse ++ done) rest hr
    rw [List.append_nil, h done rest hr, List.reverse_append, List.append_assoc]
    exact hnext
  | cons c ds => exact h.append hd.reads ⟨List.cons_ne_nil _ _, hd.delimited⟩

theorem leads_blanks (n : Nat) : Leads (.text : Format σ) .idle (List.replicate n (Letter.ofChar ' ')) [] .idle := by
  induction n with
  | zero => exact .refl _
  | succ n ih => exact .consChar rfl ih

theorem leads_newLine (width depth : Nat) :
    Leads (.text : Format σ) .idle (Layout.newLine width depth []) [] .idle := by
  rw [Layout.newLine, List.append_nil]
  exact .consChar rfl (leads_blanks _)

theorem newLine_append (width depth : Nat) (ds : List κ) :
    Layout.newLine width depth ds = Layout.newLine width depth [] ++ ds := by
  simp [Layout.newLine]

section Layout

variable (l : Layout) (depth : Nat) {ds : List κ} {us : List (Token σ)}

theorem reads_newLine (width : Nat) (hd : Reads ds us) : Reads (Layout.newLine width depth ds) us := by
  rw [newLine_append]
  exact (leads_newLine width depth).append_reads hd

theorem reads_edge (hd : Reads ds us) : Reads (l.edge depth ds) us := by
  cases l with
  | indented width => exact reads_newLine depth width hd
  | compact => exact hd
  | spaced => exact hd

theorem continues_edge (hd : Continues ds us) : Continues (l.edge depth ds) us := by
  refine ⟨reads_edge l depth hd.reads, ?_⟩
  cases l with
  | indented width => exact delimited_ofChar rfl _
  | compact => exact hd.delimited
  | spaced => exact hd.delimited

theorem reads_blank (hd : Reads ds us) : Reads (Letter.ofChar ' ' :: ds) us :=
  (leads_blanks 1).append_reads hd

theorem continues_between (hd : Reads ds us) : Continues (l.between depth ds) (.comma :: us) := by
  cases l with
  | indented width => exact .cons leads_comma rfl (reads_newLine depth width hd)
  | compact => exact .cons leads_comma rfl hd
  | spaced => exact .cons leads_comma rfl (reads_blank hd)

theorem reads_layoutColon (hd : Reads ds us) : Reads (l.colon ds) (.colon :: us) := by
  cases l with
  | indented width => exact leads_colon.append_reads (reads_blank hd)
  | compact => exact leads_colon.append_reads hd
  | spaced => exact leads_colon.append_reads (reads_blank hd)

end Layout

/-! ## Values -/

theorem writeString_append (s : σ) (ds : List κ) :
    Json.writeString s ds = Json.writeString s [] ++ ds := by
  rw [Json.writeString, Json.writeString, foldr_writeLetter_append, foldr_writeLetter_append _ [Letter.ofChar '"']]
  simp

theorem reads_writeString (s : σ) {ds : List κ} {us : List (Token σ)} (hd : Reads ds us) :
    Reads (Json.writeString s ds) (.text (some s) :: us) := by
  rw [writeString_append]
  exact (leads_writeString s).append_reads hd

/-- A scalar is written as one token that is read as that scalar and refused for the same reasons. -/
theorem exists_scalarLexeme (range : FloatRange) (v : Json σ) : ∃ x : Lexeme σ,
    (v.isContainer = false → x.json = v ∧
      ∀ l depth ds us, Continues ds us → Reads (v.write l depth ds) (x.token :: us)) ∧
    ∀ limits depth, Reader.fault? limits range depth (some x) = v.scalarFault? limits range depth := by
  cases v with
  | null => exact ⟨.atom .null, fun _ => ⟨rfl, fun _ _ _ _ hd => leads_null.append_reads hd.reads⟩, fun _ _ => rfl⟩
  | bool b =>
    refine ⟨.atom (.bool b), fun _ => ⟨rfl, fun l depth ds us hd => ?_⟩, fun _ _ => rfl⟩
    cases b
    · exact (leads_bool false).append_reads hd.reads
    · exact (leads_bool true).append_reads hd.reads
  | int n =>
    exact ⟨.atom (.int n), fun _ => ⟨rfl, fun _ _ _ _ hd => (spells_signedDigits n).reads.continue hd⟩, fun _ _ => rfl⟩
  | float x =>
    cases x with
    | finite negative place =>
      obtain ⟨d, hspells, hval⟩ := Double.spells_text Double.jsonWords negative place
      refine ⟨.atom (.decimal d), fun _ => ⟨congrArg Json.float hval, fun _ _ _ _ hd => hspells.reads.continue hd⟩,
        fun limits depth => ?_⟩
      cases range with
      | any => rfl
      | finite =>
        cases h : limits.admits (Reader.calls depth + 2) <;>
          simp [Reader.fault?, Reader.atomFault?, Json.scalarFault?, hval, Double.isFinite, h]
    | infinite negative =>
      refine ⟨.atom (.special (.infinite negative)), fun _ => ⟨rfl, fun l depth ds us hd => ?_⟩, fun _ _ => rfl⟩
      have hword : Leads (.text : Format σ) .idle (Letter.ofChars ((Double.infinite negative).text Double.jsonWords))
          [.atom (.special (.infinite negative))] .idle := by
        cases negative <;> exact .of_chars fun _ _ => rfl
      exact hword.append_reads hd.reads
    | nan =>
      refine ⟨.atom (.special .nan), fun _ => ⟨rfl, fun l depth ds us hd => ?_⟩, fun _ _ => rfl⟩
      have hword : Leads (.text : Format σ) .idle (Letter.ofChars (Double.nan.text Double.jsonWords))
          [.atom (.special .nan)] .idle := .of_chars fun _ _ => rfl
      exact hword.append_reads hd.reads
  | str s => exact ⟨.text s, fun _ => ⟨rfl, fun _ _ _ _ hd => reads_writeString s hd.reads⟩, fun _ _ => rfl⟩
  | arr items => exact ⟨.atom .null, Bool.noConfusion, fun _ _ => rfl⟩
  | obj members => exact ⟨.atom .null, Bool.noConfusion, fun _ _ => rfl⟩

/-- One token for each scalar that is read where the scalar is written. -/
def Writes (lexeme : Json σ → Lexeme σ) : Prop :=
  ∀ v : Json σ, v.isContainer = false → ∀ l depth ds us, Continues ds us →
    Reads (v.write l depth ds) ((lexeme v).token :: us)

variable {lexeme : Json σ → Lexeme σ}

mutual

/-- A written value is read as the tokens of its tree, in every layout and at every depth. -/
theorem reads_write (h : Writes lexeme) (l : Layout) : ∀ (v : Json σ) (depth : Nat) {ds : List κ}
    {us : List (Token σ)}, Continues ds us → Reads (v.write l depth ds) (v.tree.spell (.tokens lexeme) ++ us)
  | .arr [], depth, ds, us, hd => leads_openArray.append_reads (leads_closeArray.append_reads hd.reads)
  | .arr (v :: items), depth, ds, us, hd => by
    have hclose : Continues (Letter.ofChar ']' :: ds) (.closeArray :: us) := .cons leads_closeArray rfl hd.reads
    have hrest := continues_writeItems h l items (depth + 1) (continues_edge l depth hclose)
    have hfirst := reads_edge l (depth + 1) (reads_write h l v (depth + 1) hrest)
    have hall := leads_openArray.append_reads hfirst
    simpa [Json.write, Json.tree, Json.itemTrees, Tree.spell, Tree.spellItems, Spelling.tokens] using hall
  | .obj [], depth, ds, us, hd => leads_openObject.append_reads (leads_closeObject.append_reads hd.reads)
  | .obj ((name, v) :: members), depth, ds, us, hd => by
    have hclose : Continues (Letter.ofChar '\x7d' :: ds) (.closeObject :: us) := .cons leads_closeObject rfl hd.reads
    have hrest := continues_writeMembers h l members (depth + 1) (continues_edge l depth hclose)
    have hvalue := reads_layoutColon l (reads_write h l v (depth + 1) hrest)
    have hfirst := reads_edge l (depth + 1) (reads_writeString name hvalue)
    have hall := leads_openObject.append_reads hfirst
    simpa [Json.write, Json.tree, Json.memberTrees, Tree.spell, Tree.spellMembers, Spelling.tokens] using hall
  | .null, depth, ds, us, hd => h .null rfl l depth ds us hd
  | .bool b, depth, ds, us, hd => h (.bool b) rfl l depth ds us hd
  | .int n, depth, ds, us, hd => h (.int n) rfl l depth ds us hd
  | .float x, depth, ds, us, hd => h (.float x) rfl l depth ds us hd
  | .str s, depth, ds, us, hd => h (.str s) rfl l depth ds us hd

theorem continues_writeItems (h : Writes lexeme) (l : Layout) : ∀ (items : List (Json σ)) (depth : Nat)
    {ds : List κ} {us : List (Token σ)}, Continues ds us → Continues (Json.writeItems l depth items ds)
      (Tree.spellItems (.tokens lexeme) false (Json.itemTrees items) ++ us)
  | [], _, _, _, hd => hd
  | v :: items, depth, ds, us, hd => by
    have hrest := continues_writeItems h l items depth hd
    have hall := continues_between l depth (reads_write h l v depth hrest)
    simpa [Json.writeItems, Json.itemTrees, Tree.spellItems, Spelling.tokens] using hall

theorem continues_writeMembers (h : Writes lexeme) (l : Layout) : ∀ (members : List (σ × Json σ)) (depth : Nat)
    {ds : List κ} {us : List (Token σ)}, Continues ds us → Continues (Json.writeMembers l depth members ds)
      (Tree.spellMembers (.tokens lexeme) false (Json.memberTrees members) ++ us)
  | [], _, _, _, hd => hd
  | (name, v) :: members, depth, ds, us, hd => by
    have hrest := continues_writeMembers h l members depth hd
    have hvalue := reads_layoutColon l (reads_write h l v depth hrest)
    have hall := continues_between l depth (reads_writeString name hvalue)
    simpa [Json.writeMembers, Json.memberTrees, Tree.spellMembers, Spelling.tokens] using hall

end

end Lexer

namespace Json

open Lexer

variable {σ κ : Type} [DecidableEq σ] [Script σ κ]

/-- **A value is read back from its text**, in every layout, unless something in it is refused. -/
theorem readWithin_write (limits : Limits) (range : FloatRange) (l : Layout) {v : Json σ} (h : v.Distinct) :
    readWithin limits range (v.write l 0 []) = (v.fault? limits range).elim (.ok v) .error := by
  obtain ⟨lexeme, hlexeme⟩ := Classical.skolem.1 (exists_scalarLexeme (σ := σ) range)
  have hwrites : Writes lexeme := fun v hv => ((hlexeme v).1 hv).2
  have htokens := (reads_write hwrites l v 0 .nil).tokens
  rw [List.append_nil] at htokens
  have hvalue : v.tree.value (fun a => (lexeme a).json) = v := value_tree (fun a ha => ((hlexeme a).1 ha).1) v h
  have hfault : Reader.rowFault? limits range lexeme (v.tree.pieces 0) = v.fault? limits range := by
    refine congrArg (List.findSome? · (v.tree.pieces 0)) (funext fun p => ?_)
    obtain ⟨depth, _ | a⟩ := p
    · rfl
    · exact (hlexeme a).2 limits depth
  have hspell := Json.ofTokens_spell limits range lexeme v.tree
  rw [hvalue, hfault] at hspell
  rw [readWithin]
  exact (congrArg (fun p => ofTokens limits range p.1 p.2) htokens).trans hspell

/-- What a value's text spells is that value. -/
theorem readChars_write (range : FloatRange) (l : Layout) {v : Json σ} (h : v.Distinct) :
    readChars range (v.write l 0 []) = .ok v := by
  rw [readChars, readWithin_write _ _ _ h, fault?_unlimited]
  rfl

theorem read_render (range : FloatRange) (l : Layout) {v : Json σ} (h : v.Distinct) :
    read range (v.render l) = .ok v := by
  rw [read, render, Script.letters_ofLetters]
  exact readChars_write range l h

/-- Values with one text are one value. -/
theorem render_inj {l : Layout} {v w : Json σ} (hv : v.Distinct) (hw : w.Distinct) :
    v.render l = w.render l ↔ v = w := by
  constructor
  · intro h
    have hread := read_render .any l hv
    rw [h, read_render .any l hw] at hread
    exact (Except.ok.inj hread).symm
  · exact congrArg (render l)

end Json

end SnapshotStaging
