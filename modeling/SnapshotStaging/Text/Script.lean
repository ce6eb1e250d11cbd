/-!
# Texts

A text is a row of code points. Those of a `String` are characters, and half of a surrogate pair is none; yet a text
that is read may hold such a half, for an escape can name one. Reading and writing ask of texts what `Script` says, and
so do both for the two kinds of texts.
-/

namespace SnapshotStaging

/-- A code point: that of a character, or half of a surrogate pair. -/
inductive CodePoint
  | char (c : Char)
  | half (h : Fin 0x800)
  deriving DecidableEq, Repr

/-- The number of a code point. -/
def CodePoint.code : CodePoint → Nat
  | .char c => c.toNat
  | .half h => 0xD800 + h

theorem CodePoint.code_injective {p q : CodePoint} (h : p.code = q.code) : p = q := by
  have hvalid (c : Char) : c.toNat < 0xD800 ∨ 0xDFFF < c.toNat := by
    have h : c.toNat.isValidChar := c.valid
    exact h.imp_right And.left
  cases p with
  | char c =>
    cases q with
    | char d => exact congrArg CodePoint.char (Char.toNat_inj.1 h)
    | half d =>
      have hc := hvalid c
      simp only [code] at h
      omega
  | half c =>
    cases q with
    | char d =>
      have hd := hvalid d
      simp only [code] at h
      omega
    | half d => exact congrArg CodePoint.half (Fin.ext (Nat.add_left_cancel h))

/-- What texts are made of. Each letter is told from the others by its code point. -/
class Letter (κ : Type) where
  ofChar : Char → κ
  ofChars : List Char → List κ
  point : κ → CodePoint
  /-- The letter that has a code point, if one has. -/
  ofPoint? : CodePoint → Option κ
  ofChars_eq : ∀ cs, ofChars cs = cs.map ofChar
  point_ofChar : ∀ c, point (ofChar c) = .char c
  ofPoint?_eq_some_iff : ∀ {p k}, ofPoint? p = some k ↔ point k = p

/-- Texts of some kind and their letters. -/
class Script (σ : Type) (κ : outParam Type) extends Letter κ where
  letters : σ → List κ
  ofLetters : List κ → σ
  ofString : String → σ
  letters_ofLetters : ∀ ks, letters (ofLetters ks) = ks
  ofLetters_letters : ∀ s, ofLetters (letters s) = s
  letters_ofString : ∀ s, letters (ofString s) = s.toList.map ofChar

instance : Letter Char where
  ofChar c := c
  ofChars cs := cs
  point := .char
  ofPoint?
    | .char c => some c
    | .half _ => none
  ofChars_eq cs := (List.map_id cs).symm
  point_ofChar _ := rfl
  ofPoint?_eq_some_iff {p c} := by cases p <;> simp [eq_comm]

instance : Letter CodePoint where
  ofChar := .char
  ofChars cs := cs.map .char
  point p := p
  ofPoint? := some
  ofChars_eq _ := rfl
  point_ofChar _ := rfl
  ofPoint?_eq_some_iff := by simp [eq_comm]

instance : Script String Char where
  letters := String.toList
  ofLetters := String.ofList
  ofString s := s
  letters_ofLetters _ := String.toList_ofList
  ofLetters_letters _ := String.ofList_toList
  letters_ofString _ := (List.map_id _).symm

instance : Script (List CodePoint) CodePoint where
  letters ps := ps
  ofLetters ps := ps
  ofString s := s.toList.map .char
  letters_ofLetters _ := rfl
  ofLetters_letters _ := rfl
  letters_ofString _ := rfl

namespace Letter

variable {κ : Type} [Letter κ]

@[simp] theorem ofChars_nil : (ofChars [] : List κ) = [] := ofChars_eq []

@[simp] theorem ofChars_cons (c : Char) (cs : List Char) : (ofChars (c :: cs) : List κ) = ofChar c :: ofChars cs := by
  rw [ofChars_eq, ofChars_eq, List.map_cons]

@[simp] theorem ofChars_append (cs ds : List Char) : (ofChars (cs ++ ds) : List κ) = ofChars cs ++ ofChars ds := by
  rw [ofChars_eq, ofChars_eq, ofChars_eq, List.map_append]

@[simp] theorem ofChar_char (c : Char) : (ofChar c : Char) = c := rfl

@[simp] theorem ofChars_chars (cs : List Char) : (ofChars cs : List Char) = cs := rfl

attribute [simp] point_ofChar

@[simp] theorem ofPoint?_point (k : κ) : ofPoint? (point k) = some k := ofPoint?_eq_some_iff.2 rfl

end Letter

namespace Script

attribute [simp] letters_ofLetters ofLetters_letters

variable {σ κ : Type} [Script σ κ]

@[simp] theorem letters_string (s : String) : letters s = s.toList := rfl

@[simp] theorem ofLetters_chars (cs : List Char) : (ofLetters cs : String) = String.ofList cs := rfl

@[simp] theorem ofString_string (s : String) : (ofString s : String) = s := rfl

/-- The code points of a text. -/
def points (s : σ) : List CodePoint := (letters s).map Letter.point

/-- The text that has certain code points, if texts of this kind hold them. -/
def ofPoints? (ps : List CodePoint) : Option σ := (ps.mapM Letter.ofPoint?).map ofLetters

theorem mapM_ofPoint?_eq_some_iff {ps : List CodePoint} {ks : List κ} :
    ps.mapM Letter.ofPoint? = some ks ↔ ks.map Letter.point = ps := by
  induction ps generalizing ks with
  | nil => simp
  | cons p ps ih => cases ks <;> simp [List.mapM_cons, ih, Letter.ofPoint?_eq_some_iff, Option.bind_eq_some_iff]

/-- A text is told from all others by its code points. -/
theorem ofPoints?_eq_some_iff {ps : List CodePoint} {s : σ} : ofPoints? ps = some s ↔ points s = ps := by
  rw [ofPoints?, Option.map_eq_some_iff, points]
  constructor
  · rintro ⟨ks, hks, rfl⟩
    rw [letters_ofLetters]
    exact mapM_ofPoint?_eq_some_iff.1 hks
  · exact fun h => ⟨letters s, mapM_ofPoint?_eq_some_iff.2 h, ofLetters_letters s⟩

@[simp] theorem ofPoints?_points (s : σ) : ofPoints? (points s) = some s := ofPoints?_eq_some_iff.2 rfl

theorem points_injective {s t : σ} (h : points s = points t) : s = t :=
  Option.some.inj ((ofPoints?_eq_some_iff.2 h).symm.trans (ofPoints?_points t))

end Script

end SnapshotStaging
