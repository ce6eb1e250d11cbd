import SnapshotStaging.Json.Lexer
import SnapshotStaging.Json.Printer

/-!
# What the lexer makes of written text

`Leads f s cs ts next` says that in a format `f` from state `s` the letters `cs` lead to `next` and hand out the
tokens `ts`, whatever follows. A number ends only where a glyph stands that cannot continue it, so
what the lexer makes of a whole lexeme of a text is `Reads cs ts`, which asks that of the glyph after it.

* `leads_writeString`: a written string is read as one text token with its content;
* `Reads.append`: lexemes in a row are read one after another when the later one cannot continue the
  earlier.
-/

namespace SnapshotStaging

@[simp]
theorem Letter.glyph_ofChar {κ : Type} [Letter κ] (c : Char) : Letter.glyph (Letter.ofChar c : κ) = .char c := by
  rw [Letter.glyph, Letter.point_ofChar]

namespace Lexer

variable {σ κ : Type}

/-- Letters as glyphs. -/
def glyphs [Letter κ] (ks : List κ) : List Glyph := ks.map Letter.glyph

section

variable [Letter κ]

@[simp] theorem glyphs_nil : glyphs ([] : List κ) = [] := rfl
@[simp] theorem glyphs_cons (k : κ) (ks : List κ) : glyphs (k :: ks) = Letter.glyph k :: glyphs ks := rfl
@[simp] theorem glyphs_append (ks ls : List κ) : glyphs (ks ++ ls) = glyphs ks ++ glyphs ls := List.map_append

theorem glyphs_ofChars (cs : List Char) : glyphs (Letter.ofChars cs : List κ) = cs.map .char := by
  induction cs with
  | nil => simp
  | cons c cs ih => simp [ih]

end

/-! ## Rows of steps -/

/-- From `s` the letters `ks` lead to `next` and hand out `ts`. -/
def Leads [Script σ κ] (f : Format σ) (s : State) (ks : List κ) (ts : List (Token σ)) (next : State) : Prop :=
  ∀ done rest, run f s done (glyphs ks ++ rest) = run f next (ts.reverse ++ done) rest

section

variable [Script σ κ] {f : Format σ} {s m next : State} {k : κ} {ks ls : List κ} {ts us : List (Token σ)}

theorem Leads.refl (s : State) : Leads f s [] [] s := fun _ _ => rfl

theorem Leads.trans (h1 : Leads f s ks ts m) (h2 : Leads f m ls us next) : Leads f s (ks ++ ls) (ts ++ us) next := by
  intro done rest
  rw [glyphs_append, List.append_assoc, h1, h2, List.reverse_append, List.append_assoc]

/-- Letters that give no token, then others. -/
theorem Leads.then (h1 : Leads f s ks [] m) (h2 : Leads f m ls us next) : Leads f s (ks ++ ls) us next :=
  h1.trans h2

theorem Leads.single (h : step f s (Letter.glyph k) = (some next, ts)) : Leads f s [k] ts next := by
  intro done rest
  simp [run, h]

theorem Leads.cons (h : step f s (Letter.glyph k) = (some m, [])) (h2 : Leads f m ks us next) :
    Leads f s (k :: ks) us next :=
  (Leads.single h).trans h2

/-- A character, in whatever letters. -/
theorem Leads.char {c : Char} (h : step f s (.char c) = (some next, ts)) : Leads f s [Letter.ofChar c] ts next :=
  .single (by rw [Letter.glyph_ofChar, h])

theorem Leads.consChar {c : Char} (h : step f s (.char c) = (some m, [])) (h2 : Leads f m ks us next) :
    Leads f s (Letter.ofChar c :: ks) us next :=
  .cons (by rw [Letter.glyph_ofChar, h]) h2

/-- Characters in whatever letters. -/
theorem Leads.of_chars {cs : List Char}
    (h : ∀ done rest, run f s done (cs.map Glyph.char ++ rest) = run f next (ts.reverse ++ done) rest) :
    Leads f s (Letter.ofChars cs) ts next := by
  intro done rest
  rw [glyphs_ofChars, h]

end

/-! ## Lexemes -/

/-- Whether a glyph can stand right after any number. -/
def endsNumber : Glyph → Bool
  | .char c => !(c.isDigit || c = '.' || c = 'e' || c = 'E')
  | _ => true

/-- No number goes on into these glyphs. -/
def Delimited (rest : List Glyph) : Prop := ∀ g ∈ rest.head?, endsNumber g = true

@[simp] theorem delimited_nil : Delimited [] := by simp [Delimited]

@[simp] theorem delimited_cons (g : Glyph) (rest : List Glyph) :
    Delimited (g :: rest) ↔ endsNumber g = true := by simp [Delimited]

theorem delimited_ofChar [Letter κ] {c : Char} (h : endsNumber (.char c) = true) (ks : List κ) :
    Delimited (glyphs (Letter.ofChar c :: ks)) := by
  rw [glyphs_cons, Letter.glyph_ofChar]
  exact (delimited_cons _ _).2 h

/-- Between tokens of a text the letters `ks` are read as `ts`. -/
def Reads [Script σ κ] (ks : List κ) (ts : List (Token σ)) : Prop :=
  ∀ done rest, Delimited rest →
    run (.text : Format σ) .idle done (glyphs ks ++ rest) = run (.text : Format σ) .idle (ts.reverse ++ done) rest

/-- What stands first in a row of lexemes cannot continue a number before it. -/
def Separates [Letter κ] (ks : List κ) : Prop := ks ≠ [] ∧ Delimited (glyphs ks)

theorem delimited_append [Letter κ] {ks : List κ} {rest : List Glyph} (h : Separates ks) :
    Delimited (glyphs ks ++ rest) := by
  obtain ⟨hne, hd⟩ := h
  cases ks with
  | nil => exact absurd rfl hne
  | cons k ks => simpa using hd

section

variable [Script σ κ] {ks ls : List κ} {ts us : List (Token σ)}

theorem Leads.reads (h : Leads .text .idle ks ts .idle) : Reads ks ts := fun done rest _ => h done rest

theorem Reads.nil : Reads ([] : List κ) ([] : List (Token σ)) := fun _ _ _ => rfl

theorem Reads.append (h1 : Reads ks ts) (h2 : Reads ls us) (hs : Separates ls) : Reads (ks ++ ls) (ts ++ us) := by
  intro done rest hr
  rw [glyphs_append, List.append_assoc, h1 _ _ (delimited_append hs), h2 _ _ hr,
    List.reverse_append, List.append_assoc]

/-- After a lexeme that ends by itself anything may stand. -/
theorem Leads.append_reads (h1 : Leads .text .idle ks ts .idle) (h2 : Reads ls us) : Reads (ks ++ ls) (ts ++ us) := by
  intro done rest hr
  rw [glyphs_append, List.append_assoc, h1, h2 _ _ hr, List.reverse_append, List.append_assoc]

/-- A text that is read to its end. -/
theorem Reads.tokens (h : Reads ks ts) : (Format.text : Format σ).tokens (glyphs ks) = (ts, true) := by
  have := h [] [] delimited_nil
  rw [List.append_nil] at this
  simp [Format.tokens, this, run, finish]

end

/-! ## Punctuation and words -/

section

variable [Script σ κ]

theorem leads_openObject : Leads (.text : Format σ) .idle [Letter.ofChar '\x7b'] [.openObject] .idle := .char rfl
theorem leads_closeObject : Leads (.text : Format σ) .idle [Letter.ofChar '\x7d'] [.closeObject] .idle := .char rfl
theorem leads_openArray : Leads (.text : Format σ) .idle [Letter.ofChar '['] [.openArray] .idle := .char rfl
theorem leads_closeArray : Leads (.text : Format σ) .idle [Letter.ofChar ']'] [.closeArray] .idle := .char rfl
theorem leads_comma : Leads (.text : Format σ) .idle [Letter.ofChar ','] [.comma] .idle := .char rfl
theorem leads_colon : Leads (.text : Format σ) .idle [Letter.ofChar ':'] [.colon] .idle := .char rfl

theorem leads_null : Leads (.text : Format σ) .idle (Letter.ofChars ['n', 'u', 'l', 'l']) [.atom .null] .idle :=
  .of_chars fun _ _ => rfl

theorem leads_bool (b : Bool) : Leads (.text : Format σ) .idle
    (Letter.ofChars (if b then ['t', 'r', 'u', 'e'] else ['f', 'a', 'l', 's', 'e'])) [.atom (.bool b)] .idle := by
  cases b <;> exact .of_chars fun _ _ => rfl

end

/-! ## Strings -/

theorem ofCode_toNat (c : Char) : Glyph.ofCode c.toNat = .char c := by
  have h : c.toNat.isValidChar := c.valid
  rw [Glyph.ofCode, dif_pos h]
  congr 1
  apply Char.ext
  apply UInt32.toNat_inj.1
  exact UInt32.toNat_ofNat_of_lt' c.val.toNat_lt

theorem hexDigit?_lowHexDigit : ∀ n < 16, hexDigit? (Json.lowHexDigit n) = some n := by decide

end Lexer

namespace Fragment

/-- In a text a fragment stands for a code point, whatever follows it. -/
def Stands (fragment : Fragment) (p : CodePoint) : Prop :=
  ∀ rest, points (fragment :: rest) = (points rest).map (p :: ·)

theorem stands_letter (p : CodePoint) : Stands (.letter p) p := fun _ => by rw [points]

theorem named_toNat (c : Char) : named c.toNat = .char c := by
  have hvalid : ¬ (0xD800 ≤ c.toNat ∧ c.toNat < 0xE000) := by
    have h : c.toNat.isValidChar := c.valid
    rcases h with h | h <;> omega
  rw [named, dif_neg hvalid, Char.ofNat_toNat]

/-- An escape that is no half of a pair stands for the character that it names. -/
theorem stands_unit {c : Char} (h : c.toNat < 0x20) : Stands (.unit c.toNat) (.char c) := by
  intro rest
  have hhigh : isHigh c.toNat = false := by simp [isHigh]; omega
  cases rest with
  | nil => simp [points, named_toNat]
  | cons fragment rest => cases fragment <;> simp [points, named_toNat, hhigh]

end Fragment

namespace Lexer

variable {σ κ : Type} [Script σ κ] {f : Format σ}

theorem leads_hexDigit (content : Content) (due value n : Nat) (h : n < 16) :
    Leads f (.code content (due + 2) value) [Letter.ofChar (Json.lowHexDigit n)] []
      (.code content (due + 1) (16 * value + n)) :=
  .char (by simp [step, hexDigit?_lowHexDigit n h])

/-- A control character is written as an escape with its code. -/
theorem leads_control (content : Content) (c : Char) (h : c.toNat < 0x20) :
    Leads f (.inside content) (Letter.ofChars
      ['\\', 'u', '0', '0', Json.lowHexDigit (c.toNat / 16), Json.lowHexDigit (c.toNat % 16)]) []
      (.inside (.unit c.toNat :: content)) := by
  have hzero : Json.lowHexDigit 0 = '0' := rfl
  have hlast : Leads f (.code content 1 (16 * (16 * 0 + 0) + c.toNat / 16))
      [Letter.ofChar (Json.lowHexDigit (c.toNat % 16))] [] (.inside (.unit c.toNat :: content)) := by
    refine .char ?_
    have hvalue : 16 * (c.toNat / 16) + c.toNat % 16 = c.toNat := Nat.div_add_mod _ _
    simp [step, hexDigit?_lowHexDigit _ (Nat.mod_lt _ (by decide : 0 < 16)), hvalue]
  rw [Letter.ofChars_cons, Letter.ofChars_cons]
  refine .consChar rfl (.consChar rfl ?_)
  simp only [Letter.ofChars_cons, Letter.ofChars_nil]
  rw [← hzero]
  exact ((leads_hexDigit _ 2 0 0 (by decide)).trans (leads_hexDigit _ 1 _ 0 (by decide))).trans
    ((leads_hexDigit _ 0 _ _ (by omega)).trans hlast)

theorem writeLetter_append (k : κ) (rest : List κ) : Json.writeLetter k rest = Json.writeLetter k [] ++ rest := by
  rw [Json.writeLetter, Json.writeLetter]
  cases Letter.point k with
  | char c => simp
  | half h => rfl

/-- A written character is one fragment that stands for it. -/
theorem leads_escaped (content : Content) (c : Char) : ∃ fragment : Fragment, fragment.Stands (.char c) ∧
    Leads f (.inside content) (Letter.ofChars (Json.escaped c)) [] (.inside (fragment :: content)) := by
  unfold Json.escaped
  split
  case h_8 _ h1 h2 _ _ _ _ _ =>
    split
    case isTrue h => exact ⟨_, Fragment.stands_unit h, leads_control content c h⟩
    case isFalse h =>
      refine ⟨_, Fragment.stands_letter _, .of_chars fun done rest => ?_⟩
      simp [run, step, insideString, step.outcome, if_neg (show ¬ c = '"' from h1),
        if_neg (show ¬ c = '\\' from h2), h]
  all_goals exact ⟨_, Fragment.stands_letter _, .of_chars fun _ _ => rfl⟩

theorem leads_writeLetter (content : Content) (k : κ) : ∃ fragment : Fragment, fragment.Stands (Letter.point k) ∧
    Leads f (.inside content) (Json.writeLetter k []) [] (.inside (fragment :: content)) := by
  rw [Json.writeLetter]
  cases hk : Letter.point k with
  | char c =>
    simp only [List.append_nil]
    exact leads_escaped content c
  | half h =>
    refine ⟨_, Fragment.stands_letter _, .single ?_⟩
    rw [Letter.glyph, hk]
    rfl

theorem leads_writeLetters (ks : List κ) (content : Content) : ∃ fragments,
    Fragment.points fragments = some (ks.map Letter.point) ∧
    Leads f (.inside content) (ks.foldr Json.writeLetter []) [] (.inside (fragments.reverse ++ content)) := by
  induction ks generalizing content with
  | nil => exact ⟨[], rfl, .refl _⟩
  | cons k ks ih =>
    obtain ⟨fragment, hfragment, hfirst⟩ := leads_writeLetter (f := f) content k
    obtain ⟨fragments, hfragments, hrest⟩ := ih (fragment :: content)
    refine ⟨fragment :: fragments, by rw [hfragment, hfragments]; rfl, ?_⟩
    rw [List.foldr_cons, writeLetter_append, List.reverse_cons, List.append_assoc]
    exact hfirst.trans hrest

theorem foldr_writeLetter_append (ks rest : List κ) :
    ks.foldr Json.writeLetter rest = ks.foldr Json.writeLetter [] ++ rest := by
  induction ks with
  | nil => rfl
  | cons k ks ih =>
    rw [List.foldr_cons, List.foldr_cons, writeLetter_append, ih, writeLetter_append k (List.foldr _ _ _),
      List.append_assoc]

/-- A written string is read as one text token with its content. -/
theorem leads_writeString (s : σ) : Leads (.text : Format σ) .idle (Json.writeString s []) [.text (some s)] .idle := by
  obtain ⟨fragments, hfragments, hletters⟩ := leads_writeLetters (f := (.text : Format σ)) (Script.letters s) []
  refine .consChar (m := .inside []) rfl ?_
  rw [foldr_writeLetter_append]
  refine hletters.then (.char ?_)
  have hreading : (Format.text : Format σ).reading fragments = some s := by
    simp only [Format.text, hfragments]
    exact Script.ofPoints?_points s
  simp [step, insideString, step.outcome, closed, hreading]

end Lexer

end SnapshotStaging
