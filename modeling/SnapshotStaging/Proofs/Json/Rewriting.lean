import SnapshotStaging.Json.Text
import SnapshotStaging.Proofs.Json.Canonical

/-!
# Texts in canonical form

A value that is read repeats no name, since a repeated member takes the place of the one before it. So the canonical
text of a value is read back as its canonical form, in every layout, and a text that is rewritten in canonical form
is read as the same value but for the order of members.

Main result `canonicalText_reads_back`.
-/

namespace SnapshotStaging

namespace Json

variable {σ : Type} {name : σ} {v : Json σ} {items : List (Json σ)} {members : List (σ × Json σ)}

theorem distinctItems_iff : DistinctItems items ↔ ∀ v ∈ items, v.Distinct := by
  induction items with
  | nil => simp [DistinctItems]
  | cons v rest ih => simp [DistinctItems, ih]

theorem anyItemInteger_eq_false {p : Int → Bool} :
    anyItemInteger p items = false ↔ ∀ v ∈ items, v.anyInteger p = false := by
  induction items with
  | nil => simp [anyItemInteger]
  | cons v rest ih => simp [anyItemInteger, ih]

theorem anyMemberInteger_eq_false {p : Int → Bool} :
    anyMemberInteger p members = false ↔ ∀ m ∈ members, m.2.anyInteger p = false := by
  induction members with
  | nil => simp [anyMemberInteger]
  | cons m rest ih =>
    obtain ⟨n, w⟩ := m
    simp [anyMemberInteger, ih]

/-! ## What reading and ordering ask of the platform -/

mutual

/-- Ordering takes two calls for each container around a piece. -/
theorem depth_le_orderingCalls : ∀ {v : Json σ} {depth : Nat} {p : Nat × Option (Json σ)}, p ∈ v.tree.pieces depth →
    2 * p.1 ≤ v.orderingCalls + 2 * depth ∧ (p.2.isSome → 2 * p.1 + 1 ≤ v.orderingCalls + 2 * depth)
  | .arr items, depth, p, h => by
    rw [tree, Tree.pieces, List.mem_cons] at h
    rw [orderingCalls]
    rcases h with rfl | h
    · exact ⟨by dsimp only; omega, nofun⟩
    · obtain ⟨hopen, hleaf⟩ := depth_le_itemCalls h
      exact ⟨by omega, fun hp => by have := hleaf hp; omega⟩
  | .obj members, depth, p, h => by
    rw [tree, Tree.pieces, List.mem_cons] at h
    rw [orderingCalls]
    rcases h with rfl | h
    · exact ⟨by dsimp only; omega, nofun⟩
    · obtain ⟨hopen, hleaf⟩ := depth_le_memberCalls h
      exact ⟨by omega, fun hp => by have := hleaf hp; omega⟩
  | .null, depth, p, h | .bool _, depth, p, h | .int _, depth, p, h | .float _, depth, p, h | .str _, depth, p, h => by
    rw [List.mem_singleton.1 h]
    exact ⟨by dsimp only; omega, fun _ => by simp only [orderingCalls]; omega⟩

theorem depth_le_itemCalls : ∀ {items : List (Json σ)} {depth : Nat} {p : Nat × Option (Json σ)},
    p ∈ Tree.itemPieces depth (itemTrees items) →
    2 * p.1 ≤ itemCalls items + 2 * depth ∧ (p.2.isSome → 2 * p.1 + 1 ≤ itemCalls items + 2 * depth)
  | v :: items, depth, p, h => by
    rw [itemTrees, Tree.itemPieces, List.mem_append] at h
    rw [itemCalls]
    rcases h with h | h
    · obtain ⟨hopen, hleaf⟩ := depth_le_orderingCalls h
      exact ⟨by omega, fun hp => by have := hleaf hp; omega⟩
    · obtain ⟨hopen, hleaf⟩ := depth_le_itemCalls h
      exact ⟨by omega, fun hp => by have := hleaf hp; omega⟩

theorem depth_le_memberCalls : ∀ {members : List (σ × Json σ)} {depth : Nat} {p : Nat × Option (Json σ)},
    p ∈ Tree.memberPieces depth (memberTrees members) →
    2 * p.1 ≤ memberCalls members + 2 * depth ∧ (p.2.isSome → 2 * p.1 + 1 ≤ memberCalls members + 2 * depth)
  | (name, v) :: members, depth, p, h => by
    rw [memberTrees, Tree.memberPieces, List.mem_append] at h
    rw [memberCalls]
    rcases h with h | h
    · obtain ⟨hopen, hleaf⟩ := depth_le_orderingCalls h
      exact ⟨by omega, fun hp => by have := hleaf hp; omega⟩
    · obtain ⟨hopen, hleaf⟩ := depth_le_memberCalls h
      exact ⟨by omega, fun hp => by have := hleaf hp; omega⟩

end

mutual

/-- A scalar of a value has no integer that the value has not. -/
theorem anyInteger_of_mem_leaves {p : Int → Bool} {a : Json σ} : ∀ {v : Json σ}, a ∈ v.tree.leaves →
    v.anyInteger p = false → a.anyInteger p = false
  | .arr items, h, hv => anyInteger_of_mem_itemLeaves h hv
  | .obj members, h, hv => anyInteger_of_mem_memberLeaves h hv
  | .null, h, hv | .bool _, h, hv | .int _, h, hv | .float _, h, hv | .str _, h, hv => by
    rw [List.mem_singleton.1 h]
    exact hv

theorem anyInteger_of_mem_itemLeaves {p : Int → Bool} {a : Json σ} : ∀ {items : List (Json σ)},
    a ∈ Tree.itemLeaves (itemTrees items) → anyItemInteger p items = false → a.anyInteger p = false
  | _ :: _, h, hv => by
    obtain ⟨hfirst, hrest⟩ := Bool.or_eq_false_iff.1 hv
    exact (List.mem_append.1 h).elim (anyInteger_of_mem_leaves · hfirst) (anyInteger_of_mem_itemLeaves · hrest)

theorem anyInteger_of_mem_memberLeaves {p : Int → Bool} {a : Json σ} : ∀ {members : List (σ × Json σ)},
    a ∈ Tree.memberLeaves (memberTrees members) → anyMemberInteger p members = false → a.anyInteger p = false
  | (_, _) :: _, h, hv => by
    obtain ⟨hfirst, hrest⟩ := Bool.or_eq_false_iff.1 hv
    exact (List.mem_append.1 h).elim (anyInteger_of_mem_leaves · hfirst) (anyInteger_of_mem_memberLeaves · hrest)

end

section

variable [Platform]

/-- So many calls are at hand wherever twenty and twice as many are. -/
theorem admits_of_ordering {calls depth : Nat} (h : Platform.limits.admits calls = true) (hdepth : 2 * depth ≤ calls)
    {n : Nat} (hn : n ≤ 4 + depth ∨ n ≤ 5 + depth ∧ 2 * depth + 1 ≤ calls) : Platform.limits.admits n = true := by
  by_cases hsmall : n ≤ 20
  · exact Limits.admits_mono Platform.flat hsmall
  · exact Limits.admits_mono h (by omega)

/-- **What can be ordered can be read**: reading nests less than ordering does. -/
theorem fault?_eq_none (horder : Platform.limits.admits v.orderingCalls = true)
    (hlegible : v.anyInteger Platform.limits.overlong = false) : v.fault? Platform.limits .any = none := by
  refine List.findSome?_eq_none_iff.2 fun p hp => ?_
  obtain ⟨hopen, hleaf⟩ := depth_le_orderingCalls hp
  obtain ⟨depth, _ | a⟩ := p
  · exact if_pos (admits_of_ordering horder (by omega) (.inl (Nat.le_refl _)))
  · have hspecial : Platform.limits.admits (Reader.calls depth + 1) = true :=
      admits_of_ordering horder (by omega) (.inr ⟨by rw [Reader.calls]; omega, by simpa using hleaf rfl⟩)
    have hinteger := anyInteger_of_mem_leaves (Tree.mem_leaves_of_piece hp) hlegible
    cases a with
    | int n =>
      have hn : Platform.limits.overlong n = false := hinteger
      simp [scalarFault?, Reader.atomFault?, hn]
    | float x =>
      cases x with
      | finite _ _ => rfl
      | infinite _ | nan => exact if_pos hspecial
    | _ => rfl

/-- What the platform can write in canonical form: it has the calls to order it, and no integer is too long. -/
def Writable (v : Json σ) : Prop :=
  Platform.limits.admits v.orderingCalls = true ∧ v.anyInteger Platform.limits.overlong = false

end

/-! ## What is read -/

variable [DecidableEq σ]

/-- Setting a member keeps the other members. -/
theorem mem_put {m : σ × Json σ} (h : m ∈ put name v members) : m = (name, v) ∨ m ∈ members := by
  induction members with
  | nil => exact .inl (List.mem_singleton.1 h)
  | cons first rest ih =>
    obtain ⟨n, w⟩ := first
    rw [put] at h
    split at h
    · next heq =>
      subst heq
      exact (List.mem_cons.1 h).imp_right (List.mem_cons_of_mem _)
    · rcases List.mem_cons.1 h with rfl | h
      · exact .inr (List.mem_cons_self ..)
      · exact (ih h).imp_right (List.mem_cons_of_mem _)

theorem Distinct.put (h : (obj members).Distinct) (hv : v.Distinct) (name : σ) :
    (obj (put name v members)).Distinct := by
  refine ⟨nodup_put h.1, distinctMembers_iff.2 fun m hm => ?_⟩
  rcases mem_put hm with rfl | hm
  · exact hv
  · exact distinctMembers_iff.1 h.2 m hm

/-- What every value has that is read within limits: the scalars that are not refused have it, and containers of
values that have it. -/
structure Kept (limits : Limits) (range : FloatRange) (P : Json σ → Prop) : Prop where
  atom : ∀ depth a, Reader.atomFault? limits range depth a = none → P (Reader.atomValue a)
  text : ∀ s, P (.str s)
  array : ∀ items, (∀ v ∈ items, P v) → P (.arr items)
  object : P (.obj [])
  put : ∀ name v members, P (.obj members) → P v → P (.obj (put name v members))

end Json

namespace Reader

variable {σ κ : Type} {limits : Limits} {range : FloatRange} {P : Json σ → Prop} {s s' : State σ}
  {t : Token σ} {ts : List (Token σ)} {v : Json σ}

/-- What an open container holds so far has a property. -/
def Frame.Has (P : Json σ → Prop) : Frame σ → Prop
  | .array items => ∀ v ∈ items, P v
  | .object members _ => P (.obj members)

/-- What has been read so far has a property. -/
structure State.Has (P : Json σ → Prop) (s : State σ) : Prop where
  frames : ∀ f ∈ s.frames, f.Has P
  result : ∀ v, s.result = some v → P v

theorem State.Has.start : (start : State σ).Has P := ⟨nofun, nofun⟩

theorem State.Has.enter (h : s.Has P) {f : Frame σ} (hf : f.Has P) : (s.enter f).Has P :=
  ⟨List.forall_mem_cons.2 ⟨hf, h.frames⟩, h.result⟩

theorem State.Has.named (h : s.Has P) (name : σ) : (s.named name).Has P := by
  obtain ⟨grammar, frames, result⟩ := s
  cases frames with
  | nil => exact h
  | cons f outer =>
    obtain ⟨hf, houter⟩ := List.forall_mem_cons.1 h.frames
    cases f with
    | array items => exact h
    | object members old => exact ⟨List.forall_mem_cons.2 ⟨hf, houter⟩, h.result⟩

variable [DecidableEq σ]

theorem State.Has.place (hP : Json.Kept limits range P) (h : s.Has P) (hv : P v) : (s.place v).Has P := by
  obtain ⟨grammar, frames, result⟩ := s
  cases frames with
  | nil =>
    refine ⟨h.frames, fun w hw => ?_⟩
    cases hw
    exact hv
  | cons f outer =>
    obtain ⟨hf, houter⟩ := List.forall_mem_cons.1 h.frames
    cases f with
    | array items => exact ⟨List.forall_mem_cons.2 ⟨List.forall_mem_cons.2 ⟨hv, hf⟩, houter⟩, h.result⟩
    | object members name => exact ⟨List.forall_mem_cons.2 ⟨hP.put name v members hf hv, houter⟩, h.result⟩

theorem State.Has.leave (hP : Json.Kept limits range P) (h : s.Has P) : s.leave.Has P := by
  obtain ⟨grammar, frames, result⟩ := s
  cases frames with
  | nil => exact h
  | cons f outer =>
    obtain ⟨hf, houter⟩ := List.forall_mem_cons.1 h.frames
    have hrest : State.Has P ⟨grammar, outer, result⟩ := ⟨houter, h.result⟩
    cases f with
    | array items => exact hrest.place hP (hP.array _ fun v hv => hf v (List.mem_reverse.1 hv))
    | object members name => exact hrest.place hP hf

variable [Script σ κ]

theorem State.Has.take (hP : Json.Kept limits range P) (h : s.Has P) (htake : s.take limits range t = .ok s') :
    s'.Has P := by
  cases t with
  | openObject =>
    obtain ⟨-, rfl⟩ := of_elim_ok htake
    exact h.enter hP.object
  | openArray =>
    obtain ⟨-, rfl⟩ := of_elim_ok htake
    exact h.enter (f := .array []) nofun
  | closeObject =>
    cases htake
    exact h.leave hP
  | closeArray =>
    cases htake
    exact h.leave hP
  | comma =>
    cases htake
    exact h
  | colon =>
    cases htake
    exact h
  | text content =>
    cases content with
    | none => cases htake
    | some text =>
      rw [State.take] at htake
      split at htake
      · cases htake
        exact h.named text
      · cases htake
        exact h.place hP (hP.text text)
  | atom a =>
    obtain ⟨hfault, rfl⟩ := of_elim_ok htake
    exact h.place hP (hP.atom _ a hfault)

/-- One token more. -/
theorem State.Has.step (hP : Json.Kept limits range P) (h : s.Has P) (hstep : step limits range s t = .ok s') :
    s'.Has P := by
  obtain ⟨g, taken, -, htake, rfl⟩ := step_eq_ok_iff.1 hstep
  exact ⟨(h.take hP htake).frames, (h.take hP htake).result⟩

end Reader

namespace Json

variable {σ κ : Type} [DecidableEq σ] [Script σ κ] {limits : Limits} {range : FloatRange} {P : Json σ → Prop}
  {v : Json σ}

theorem Kept.of_ofTokens (hP : Kept limits range P) {tokens : List (Token σ)} {whole : Bool}
    (h : ofTokens limits range tokens whole = .ok v) : P v := by
  obtain ⟨s, hrun, hresult, -⟩ := Reader.ofTokens_eq_ok_iff.1 h
  have hs : s.Has P := Reader.run_keeps (fun h hstep => h.step hP hstep) .start hrun
  exact hs.result v hresult

/-- What is kept holds of what is read. -/
theorem Kept.of_readWithin (hP : Kept limits range P) {ks : List κ} (h : readWithin limits range ks = .ok v) : P v :=
  hP.of_ofTokens h

theorem kept_distinct : Kept limits range (Distinct : Json σ → Prop) where
  atom _ a _ := by cases a <;> trivial
  text _ := trivial
  array _ h := distinctItems_iff.2 h
  object := ⟨List.nodup_nil, trivial⟩
  put name _ _ h hv := h.put hv name

/-- **What is read repeats no name**, at any level. -/
theorem distinct_of_readWithin {ks : List κ} (h : readWithin limits range ks = .ok v) : v.Distinct :=
  kept_distinct.of_readWithin h

/-- **What is read has no integer with too many digits.** -/
theorem kept_legible : Kept limits range fun v : Json σ => v.anyInteger limits.overlong = false where
  atom depth a h := by
    cases a with
    | int n =>
      cases ho : limits.overlong n with
      | true => simp [Reader.atomFault?, ho] at h
      | false => exact ho
    | _ => rfl
  text _ := rfl
  array _ h := anyItemInteger_eq_false.2 h
  object := rfl
  put name v members h hv := by
    refine anyMemberInteger_eq_false.2 fun m hm => ?_
    rcases mem_put hm with rfl | hm
    · exact hv
    · exact anyMemberInteger_eq_false.1 h m hm

mutual

theorem anyInteger_canonical (p : Int → Bool) : ∀ v : Json σ, v.canonical.anyInteger p = v.anyInteger p
  | .arr items => anyItemInteger_canonicalItems p items
  | .obj members => by
    rw [canonical, anyInteger, anyInteger, ← anyMemberInteger_canonicalMembers p members]
    refine Bool.eq_iff_iff.2 ?_
    simp only [← Bool.not_eq_false, anyMemberInteger_eq_false, (sortMembers_perm_self _).mem_iff]
  | .null | .bool _ | .int _ | .float _ | .str _ => rfl

theorem anyItemInteger_canonicalItems (p : Int → Bool) : ∀ items : List (Json σ),
    anyItemInteger p (canonicalItems items) = anyItemInteger p items
  | [] => rfl
  | v :: items => by
    rw [canonicalItems, anyItemInteger, anyItemInteger, anyInteger_canonical p v, anyItemInteger_canonicalItems p items]

theorem anyMemberInteger_canonicalMembers (p : Int → Bool) : ∀ members : List (σ × Json σ),
    anyMemberInteger p (canonicalMembers members) = anyMemberInteger p members
  | [] => rfl
  | (name, v) :: members => by
    rw [canonicalMembers, anyMemberInteger, anyMemberInteger, anyInteger_canonical p v,
      anyMemberInteger_canonicalMembers p members]

end

theorem reordered_canonical (v : Json σ) : Reordered v v.canonical :=
  reordered_of_canonical_eq (canonical_canonical v).symm

/-! ## Canonical texts -/

section

variable [Platform] {v w : Json σ} {l : Layout} {ks : List κ} {text : σ}

theorem Writable.canonical (h : v.Writable) : v.canonical.Writable :=
  ⟨by rw [orderingCalls_canonical]; exact h.1, by rw [anyInteger_canonical]; exact h.2⟩

theorem writeCanonical_of_writable (h : v.Writable) (l : Layout) : writeCanonical l v = .ok (v.renderCanonical l) := by
  rw [writeCanonical, order?, if_pos h.1]
  exact if_neg (by rw [anyInteger_canonical, h.2]; exact Bool.false_ne_true)

theorem writeCanonical_eq_ok_iff : writeCanonical l v = .ok text ↔ v.Writable ∧ v.renderCanonical l = text := by
  by_cases h : v.Writable
  · rw [writeCanonical_of_writable h, Except.ok.injEq, and_iff_right h]
  · refine iff_of_false (fun heq => h ?_) (fun hw => h hw.1)
    unfold writeCanonical at heq
    split at heq
    · cases heq
    · next w horder =>
      obtain ⟨hcalls, rfl⟩ := order?_eq_some_iff.1 horder
      split at heq
      · cases heq
      · next hlegible => exact ⟨hcalls, by rwa [anyInteger_canonical, Bool.not_eq_true] at hlegible⟩

/-- A text that is read lacks nothing to be written again but the calls to order it. -/
theorem writable_of_load (h : load .any ks = .ok v) (horder : Platform.limits.admits v.orderingCalls = true) :
    v.Writable :=
  ⟨horder, kept_legible.of_readWithin h⟩

theorem canonicalText_of_load (h : load .any (Script.letters text) = .ok v) :
    canonicalText text = writeCanonical .compact v := by
  rw [canonicalText, h]

/-- The canonical text of a value is read back as its canonical form. -/
theorem load_renderCanonical (hv : v.Distinct) (h : v.Writable) (l : Layout) :
    load .any (Script.letters (v.renderCanonical l)) = .ok v.canonical := by
  have hread := readWithin_write Platform.limits .any l hv.canonical
  rw [fault?_eq_none h.canonical.1 h.canonical.2] at hread
  rw [load, renderCanonical, render, Script.letters_ofLetters]
  exact hread

/-- The canonical texts of a value are rewritten as the one without blanks. -/
theorem canonicalText_renderCanonical (hv : v.Distinct) (h : v.Writable) (l : Layout) :
    canonicalText (v.renderCanonical l) = .ok (v.renderCanonical .compact) := by
  rw [canonicalText_of_load (load_renderCanonical hv h l), writeCanonical_of_writable h.canonical, renderCanonical,
    canonical_canonical]
  rfl

/-- **Canonical texts are read back.**

* A canonical text can be written of every value that the platform can order and whose integers it can write.
* The canonical text of a value whose objects repeat no name is read as the value's canonical form, members in their
  order, in every layout.
* A text that can be read, and whose value can be ordered, can be rewritten. The new text is read as the same value
  but for the order of members, and rewriting it, or the canonical text of the value in any layout, gives it again.
* A text that can be read and whose value cannot be ordered cannot be rewritten.
* A canonical form is its own canonical form.

This holds of texts of characters, and of texts of code points, which keep a half of a surrogate pair that is read or
that an escape names. -/
theorem canonicalText_reads_back :
    (∀ (l : Layout) (v : Json σ), (∃ text, writeCanonical l v = .ok text) ↔ v.Writable) ∧
    (∀ (l : Layout) (v : Json σ) (text : σ), v.Distinct → writeCanonical l v = .ok text →
      load .any (Script.letters text) = .ok v.canonical) ∧
    (∀ (text : σ) (v : Json σ), load .any (Script.letters text) = .ok v →
      Platform.limits.admits v.orderingCalls = true → ∃ rewritten, canonicalText text = .ok rewritten ∧
        (∃ w, load .any (Script.letters rewritten) = .ok w ∧ Reordered v w) ∧
        canonicalText rewritten = .ok rewritten ∧
        ∀ l : Layout, ∃ other, writeCanonical l v = .ok other ∧ canonicalText other = .ok rewritten) ∧
    (∀ (text : σ) (v : Json σ), load .any (Script.letters text) = .ok v →
      Platform.limits.admits v.orderingCalls = false → canonicalText text = .error .exhausted) ∧
    ∀ v w : Json σ, v.order? = some w → w.order? = some w := by
  refine ⟨fun l v => ?_, fun l v text hv h => ?_, fun text v h horder => ?_, fun text v h horder => ?_,
    fun v w h => ?_⟩
  · simp [writeCanonical_eq_ok_iff]
  · obtain ⟨hw, rfl⟩ := writeCanonical_eq_ok_iff.1 h
    exact load_renderCanonical hv hw l
  · have hdistinct : v.Distinct := distinct_of_readWithin h
    have hw : v.Writable := writable_of_load h horder
    have hagain (l : Layout) : canonicalText (v.renderCanonical l) = .ok (v.renderCanonical .compact) :=
      canonicalText_renderCanonical hdistinct hw l
    refine ⟨v.renderCanonical .compact, (canonicalText_of_load h).trans (writeCanonical_of_writable hw _), ?_,
      hagain .compact, fun l => ⟨_, writeCanonical_of_writable hw l, hagain l⟩⟩
    exact ⟨v.canonical, load_renderCanonical hdistinct hw .compact, reordered_canonical v⟩
  · rw [canonicalText_of_load h, writeCanonical, order?, if_neg (by simp [horder])]
  · obtain ⟨hcalls, rfl⟩ := order?_eq_some_iff.1 h
    exact order?_eq_some_iff.2 ⟨by rwa [orderingCalls_canonical], canonical_canonical v⟩

end

/-- A repeated member, an object that is empty, and escapes: of characters, of a surrogate pair, and of halves that are
part of none. The halves are kept, one of them in a name. -/
theorem canonicalText_reads_back_repeated :
    let text : List CodePoint := Script.ofString <|
      "\x7b\"b\": 1, \"id\": \"\\\"\\ud800A\", \"\\udc00\": \"\\ud83d\\ude00\", " ++
        "\"b\": [\x7b\"z\": null, \"a\": \x7b\x7d\x7d]\x7d"
    let v : Json (List CodePoint) :=
      .obj [([.char 'b'], .arr [.obj [([.char 'z'], .null), ([.char 'a'], .obj [])]]),
        (Script.ofString "id", .str [.char '"', .half 0, .char 'A']), ([.half 0x400], .str [.char '😀'])]
    let rewritten : List CodePoint := Script.ofString "\x7b\"id\":\"\\\"" ++
      .half 0 :: Script.ofString "A\",\"b\":[\x7b\"a\":\x7b\x7d,\"z\":null\x7d],\"" ++
      .half 0x400 :: Script.ofString "\":\"😀\"\x7d"
    load .any (Script.letters text) = .ok v ∧ canonicalText text = .ok rewritten ∧
      (∃ w, load .any (Script.letters rewritten) = .ok w ∧ Reordered v w) ∧ canonicalText rewritten = .ok rewritten ∧
      ∃ other, writeCanonical (.indented 4) v = .ok other ∧ canonicalText other = .ok rewritten := by
  intro text v rewritten
  have hload : load .any (Script.letters text) = .ok v := rfl
  have horder : Platform.limits.admits v.orderingCalls = true := rfl
  have hitems : Reordered (arr [obj [([.char 'z'], .null), ([.char 'a'], .obj [])]] : Json (List CodePoint))
      (.arr [.obj [([.char 'a'], .obj []), ([.char 'z'], .null)]]) :=
    .arr (.cons (.obj (.cons _ (.scalar rfl) (.cons _ (.obj .nil .nil) .nil)) (.swap ..)) .nil)
  have hsame : Reordered v (.obj [(Script.ofString "id", .str [.char '"', .half 0, .char 'A']),
      ([.char 'b'], .arr [.obj [([.char 'a'], .obj []), ([.char 'z'], .null)]]), ([.half 0x400], .str [.char '😀'])]) :=
    .obj (.cons _ hitems (.cons _ (.scalar rfl) (.cons _ (.scalar rfl) .nil))) (.swap ..)
  have hcanonical := (hsame.canonical_eq (distinct_of_readWithin hload)).trans (canonical_of_sorted rfl)
  have htext : canonicalText text = .ok rewritten := by
    refine (canonicalText_of_load hload).trans ((writeCanonical_of_writable (writable_of_load hload horder) _).trans ?_)
    rw [renderCanonical, hcanonical]
    rfl
  obtain ⟨s, hs, hback, hagain, hlayouts⟩ := canonicalText_reads_back.2.2.1 text v hload horder
  obtain rfl : rewritten = s := Except.ok.inj (htext.symm.trans hs)
  exact ⟨hload, htext, hback, hagain, hlayouts (.indented 4)⟩

/-! ## Values that are nested deep -/

/-- Arrays within one another, the innermost of them empty. -/
def nested : Nat → Json
  | 0 => .arr []
  | n + 1 => .arr [nested n]

theorem tree_nested (n : Nat) : (nested n).tree = .nested n := by
  induction n with
  | zero => rfl
  | succ n ih => rw [nested, tree, itemTrees, itemTrees, ih, Tree.nested]

theorem distinct_nested (n : Nat) : (nested n).Distinct := by
  induction n with
  | zero => trivial
  | succ n ih => exact ⟨ih, trivial⟩

theorem orderingCalls_nested (n : Nat) : (nested n).orderingCalls = 2 * n + 2 := by
  induction n with
  | zero => rfl
  | succ n ih =>
    rw [nested, orderingCalls, itemCalls, itemCalls, ih]
    omega

/-- Nested arrays are written as their brackets. -/
theorem write_nested (n depth : Nat) (rest : List Char) : (nested n).write .compact depth rest =
    List.replicate (n + 1) '[' ++ (List.replicate (n + 1) ']' ++ rest) := by
  induction n generalizing depth rest with
  | zero => rfl
  | succ n ih =>
    have hwrite : (nested (n + 1)).write .compact depth rest =
        '[' :: (nested n).write .compact (depth + 1) (']' :: rest) := rfl
    rw [hwrite, ih, List.replicate_succ (n := n + 1), List.replicate_succ' (n := n + 1)]
    simp

/-- Arrays are read to a greater depth than they are ordered. -/
theorem load_nested [Platform] {n : Nat} (h : Platform.limits.admits (n + 5) = true) :
    load .any (List.replicate (n + 1) '[' ++ List.replicate (n + 1) ']') = .ok (nested n) := by
  have hread := readWithin_write Platform.limits .any .compact (distinct_nested n)
  have hfault : (nested n).fault? Platform.limits .any = none := by
    rw [fault?, tree_nested, Reader.findSome?_nested (fun _ => rfl), Reader.openingFault?, Reader.calls]
    exact if_pos (Limits.admits_mono h (by omega))
  rw [hfault, write_nested, List.append_nil] at hread
  exact hread

/-- Six hundred arrays and one, within one another, are read, and no call is left to put them into order: their text
cannot be rewritten. -/
theorem canonicalText_reads_back_deep : ∃ (text : String) (v : Json),
    text = String.ofList (List.replicate 601 '[' ++ List.replicate 601 ']') ∧ load .any text.toList = .ok v ∧
      v.Distinct ∧ canonicalText text = .error .exhausted ∧ ∀ l : Layout, writeCanonical l v = .error .exhausted := by
  have hload : load .any (String.ofList (List.replicate 601 '[' ++ List.replicate 601 ']')).toList =
      .ok (nested 600) := by
    rw [String.toList_ofList]
    exact load_nested rfl
  have horder : (nested 600).order? = none := by
    rw [order?, orderingCalls_nested]
    rfl
  have hwrite (l : Layout) : writeCanonical l (nested 600) = .error .exhausted := by rw [writeCanonical, horder]
  exact ⟨_, _, rfl, hload, distinct_nested 600, (canonicalText_of_load hload).trans (hwrite .compact), hwrite⟩

end Json

end SnapshotStaging
