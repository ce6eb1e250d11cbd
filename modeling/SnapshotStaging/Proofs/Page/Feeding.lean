import SnapshotStaging.Proofs.Page.Dues

/-!
# Feeding documents

The assembly is taken through the parts of a document one after another: values outside every record, values that are
passed over, the inside of a record, a whole record, an array of records, a document.

Main result `feeds_documents`: documents in a row bring about what is due for them, and leave the assembly as it began
but for the count of records.
-/

namespace SnapshotStaging

namespace Assembly

open Document Marks

/-! ## Places -/

/-- Outside every array of records, with the containers `outer` open. -/
def outside (k : Nat) (outer : List Container) : Assembly := ⟨.outsideArray, k, outer, [], false, [], 0⟩

/-- Between records, `skipped` containers deep in a value that is passed over. -/
def between (k : Nat) (outer : List Container) (skipped : Nat) : Assembly :=
  ⟨.betweenRecords, k, outer, [], false, [], skipped⟩

/-- Inside a record. -/
def inside (k : Nat) (outer : List Container) (inner : List OpenContainer) (afterName : Bool)
    (parts : List (List Char)) : Assembly :=
  ⟨.insideRecord, k, outer, inner, afterName, parts, 0⟩

/-- Containers in which no array holds records. -/
def Deep (outer : List Container) : Prop := outer ≠ [] ∧ outer ≠ [.object]

theorem Deep.cons {outer : List Container} (h : Deep outer) (c : Container) : Deep (c :: outer) :=
  ⟨List.cons_ne_nil _ _, fun heq => h.1 (List.cons.inj heq).2⟩

/-- A container once a value stands in it: after a name it held one already. -/
def filled (c : OpenContainer) (afterName : Bool) : OpenContainer :=
  if afterName then c else { c with empty := false }

/-- What is written before a value. -/
def lead (c : OpenContainer) (afterName : Bool) : List Char :=
  if afterName || c.empty then [] else [',']

theorem beforeValue_inside (k : Nat) (outer : List Container) (c : OpenContainer)
    (inner : List OpenContainer) (afterName : Bool) (parts : List (List Char)) :
    ∃ ps, ps.reverse.flatten = lead c afterName ∧
      (inside k outer (c :: inner) afterName parts).beforeValue =
        inside k outer (filled c afterName :: inner) false (ps ++ parts) := by
  obtain ⟨kind, empty⟩ := c
  cases afterName with
  | true => exact ⟨[], rfl, rfl⟩
  | false =>
    cases empty with
    | true => exact ⟨[], rfl, rfl⟩
    | false => exact ⟨[[',']], rfl, rfl⟩

theorem step_open (k : Nat) (outer : List Container) (c : OpenContainer) (inner : List OpenContainer)
    (n : Bool) (parts : List (List Char)) (kind : Container) (bracket : Char) :
    ∃ ps, ps.reverse.flatten = lead c n ++ [bracket] ∧
      (inside k outer (c :: inner) n parts).opened kind bracket =
        inside k outer (⟨kind, true⟩ :: filled c n :: inner) false (ps ++ parts) := by
  obtain ⟨ps, hps, hstate⟩ := beforeValue_inside k outer c inner n parts
  refine ⟨[bracket] :: ps, by simp [hps], ?_⟩
  rw [opened, hstate]
  rfl

/-- The open containers of an array of records: the root array, or an array member of the root object. -/
def records (root : Bool) : List Container := if root then [.array] else [.array, .object]

/-- The records among marks. -/
def count (ms : Marks) : Nat := (handed ms).1.length

theorem count_append {ms : Marks} (h : stopped ms = false) (ns : Marks) :
    count (ms ++ ns) = count ms + count ns := by
  rw [count, handed_append h, List.length_append]
  rfl

theorem not_stopped_left {ms ns : Marks} (h : stopped (ms ++ ns) = false) : stopped ms = false := by
  rw [stopped_append, Bool.or_eq_false_iff] at h
  exact h.1

variable [Platform] {table : String}

/-! ## Values of which nothing is kept -/

/-- States between which a value passes without any outcome; the list holds the containers opened
since. -/
structure Passes (table : String) (S : List Container → Assembly) : Prop where
  scalar : ∀ l kind v, (S l).step table (.scalar kind v) = (S l, .nothing)
  key : ∀ l name, (S l).step table (.key name) = (S l, .nothing)
  openArray : ∀ l, (S l).step table .openArray = (S (.array :: l), .nothing)
  openObject : ∀ l, (S l).step table .openObject = (S (.object :: l), .nothing)
  closeArray : ∀ c l, (S (c :: l)).step table .closeArray = (S l, .nothing)
  closeObject : ∀ c l, (S (c :: l)).step table .closeObject = (S l, .nothing)

variable {S : List Container → Assembly}

mutual

theorem Passes.feeds (h : Passes table S) : ∀ (t : Document) (l : List Container) (p : Nat),
    Feeds table p (S l) t.events [] (S l)
  | .leaf a, l, p => .quiet (h.scalar l a.1 a.2.payload) p
  | .arr items, l, p => by
    rw [events_arr]
    exact (Feeds.quiet (h.openArray l) p).append ((h.feeds_items items _ _).append (.quiet (h.closeArray _ l) _))
  | .obj members, l, p => by
    rw [events_obj]
    exact (Feeds.quiet (h.openObject l) p).append
      ((h.feeds_members members _ _).append (.quiet (h.closeObject _ l) _))

theorem Passes.feeds_items (h : Passes table S) : ∀ (items : List Document) (l : List Container) (p : Nat),
    Feeds table p (S l) (items.flatMap events) [] (S l)
  | [], l, p => .nil p (S l)
  | t :: rest, l, p => by
    rw [List.flatMap_cons]
    exact (h.feeds t l p).append (h.feeds_items rest l _)

theorem Passes.feeds_members (h : Passes table S) : ∀ (members : List (String × Document))
    (l : List Container) (p : Nat), Feeds table p (S l) (members.flatMap memberEvents) [] (S l)
  | [], l, p => .nil p (S l)
  | (name, t) :: rest, l, p => by
    rw [List.flatMap_cons]
    have hmember := (Feeds.quiet (h.key l (.value (.str name))) p).append (h.feeds t l _)
    exact hmember.append (h.feeds_members rest l _)

end

theorem step_openArray_deep {outer : List Container} (h : Deep outer) (k : Nat) :
    (outside k outer).step table .openArray = (outside k (.array :: outer), .nothing) := by
  simp [step, outside, stepOutside, h.1, h.2]

theorem passes_outside {outer : List Container} (h : Deep outer) (k : Nat) :
    Passes table fun l => outside k (l ++ outer) where
  scalar _ _ _ := rfl
  key _ _ := rfl
  openArray l := by
    have hdeep : Deep (l ++ outer) := by
      induction l with
      | nil => exact h
      | cons c l ih => exact ih.cons c
    exact step_openArray_deep hdeep k
  openObject _ := rfl
  closeArray _ _ := rfl
  closeObject _ _ := rfl

theorem passes_skipped (k : Nat) (outer : List Container) :
    Passes table fun l => between k outer (l.length + 1) where
  scalar _ _ _ := rfl
  key _ _ := rfl
  openArray _ := rfl
  openObject _ := rfl
  closeArray _ _ := rfl
  closeObject _ _ := rfl

/-! ## The text of a record -/

/-- Inside a record the events take the open containers from `inner` to `inner'`. They hand out nothing and write
`cs`, unless there is an integer among them that cannot be turned into text; the first such integer is refused. -/
structure Writes (table : String) (k : Nat) (outer : List Container) (inner : List OpenContainer)
    (afterName : Bool) (es : List Event) (cs : List Char) (inner' : List OpenContainer)
    (afterName' : Bool) : Prop where
  whole : es.findIdx? (·.overlong Platform.limits) = none → ∀ (p : Nat) (parts : List (List Char)),
    ∃ ps, ps.reverse.flatten = cs ∧
      Feeds table p (inside k outer inner afterName parts) es [] (inside k outer inner' afterName' (ps ++ parts))
  cut : ∀ {i : Nat}, es.findIdx? (·.overlong Platform.limits) = some i → ∀ (p : Nat) (parts : List (List Char))
    (next : Assembly),
      Feeds table p (inside k outer inner afterName parts) es [(p + i + 1, .refused .overlongInteger)] next

variable {k : Nat} {outer : List Container} {inner mid inner' : List OpenContainer} {n m n' : Bool}

theorem Writes.nil : Writes table k outer inner n [] [] inner n :=
  ⟨fun _ p _ => ⟨[], rfl, .nil p _⟩, fun h => nomatch h⟩

theorem Writes.append {es fs : List Event} {cs ds : List Char}
    (h1 : Writes table k outer inner n es cs mid m) (h2 : Writes table k outer mid m fs ds inner' n') :
    Writes table k outer inner n (es ++ fs) (cs ++ ds) inner' n' where
  whole hnone p parts := by
    rw [List.findIdx?_append, Option.or_eq_none_iff, Option.map_eq_none_iff] at hnone
    obtain ⟨ps, rfl, hfeed⟩ := h1.whole hnone.1 p parts
    obtain ⟨qs, rfl, hfeed'⟩ := h2.whole hnone.2 (p + es.length) (ps ++ parts)
    refine ⟨qs ++ ps, by simp, ?_⟩
    rw [List.append_assoc]
    exact hfeed.append hfeed'
  cut {i} hcut p parts next := by
    rw [List.findIdx?_append] at hcut
    cases hes : es.findIdx? (·.overlong Platform.limits) with
    | some j =>
      rw [hes, Option.some_or, Option.some.injEq] at hcut
      exact hcut ▸ (h1.cut hes p parts next).stop rfl fs next
    | none =>
      rw [hes, Option.none_or, Option.map_eq_some_iff] at hcut
      obtain ⟨j, hfs, rfl⟩ := hcut
      obtain ⟨ps, -, hfeed⟩ := h1.whole hes p parts
      have hlater := hfeed.append (h2.cut hfs (p + es.length) (ps ++ parts) next)
      rwa [List.nil_append, Nat.add_assoc p, Nat.add_comm es.length] at hlater

/-- An event that carries no such integer. -/
theorem Writes.single {e : Event} {cs : List Char} (hfree : e.overlong Platform.limits = false)
    (h : ∀ parts, ∃ ps, ps.reverse.flatten = cs ∧ (inside k outer inner n parts).step table e =
      (inside k outer inner' n' (ps ++ parts), .nothing)) :
    Writes table k outer inner n [e] cs inner' n' where
  whole _ p parts := by
    obtain ⟨ps, hcs, hstep⟩ := h parts
    exact ⟨ps, hcs, .quiet hstep p⟩
  cut hcut := by simp [List.findIdx?_cons, hfree] at hcut

theorem writes_scalar (c : OpenContainer) (a : ScalarKind × Scalar) :
    Writes table k outer (c :: inner) n (events (.leaf a)) (lead c n ++ a.2.payload.text)
      (filled c n :: inner) false := by
  have hstep (parts : List (List Char)) :
      (inside k outer (c :: inner) n parts).step table (.scalar a.1 a.2.payload) =
        if a.2.payload.overlong Platform.limits then
          ((inside k outer (c :: inner) n parts).beforeValue, .refused .overlongInteger)
        else (((inside k outer (c :: inner) n parts).beforeValue).written a.2.payload.text, .nothing) := rfl
  cases hover : a.2.payload.overlong Platform.limits with
  | false =>
    refine .single hover fun parts => ?_
    obtain ⟨ps, hps, hstate⟩ := beforeValue_inside k outer c inner n parts
    refine ⟨a.2.payload.text :: ps, by simp [hps], ?_⟩
    rw [hstep, hover, if_neg Bool.false_ne_true, hstate]
    rfl
  | true =>
    have hfirst : (events (.leaf a)).findIdx? (·.overlong Platform.limits) = some 0 :=
      List.findIdx?_cons.trans (if_pos hover)
    constructor
    · intro hnone
      cases hfirst.symm.trans hnone
    · intro i hcut p parts next
      cases hfirst.symm.trans hcut
      exact .refuse ((hstep parts).trans (if_pos hover)) p [] next

theorem writes_openArray (c : OpenContainer) :
    Writes table k outer (c :: inner) n [.openArray] (lead c n ++ ['['])
      (⟨.array, true⟩ :: filled c n :: inner) false := by
  refine .single rfl fun parts => ?_
  obtain ⟨ps, hps, hstate⟩ := step_open k outer c inner n parts .array '['
  exact ⟨ps, hps, congrArg (·, Outcome.nothing) hstate⟩

theorem writes_openObject (c : OpenContainer) :
    Writes table k outer (c :: inner) n [.openObject] (lead c n ++ ['\x7b'])
      (⟨.object, true⟩ :: filled c n :: inner) false := by
  refine .single rfl fun parts => ?_
  obtain ⟨ps, hps, hstate⟩ := step_open k outer c inner n parts .object '\x7b'
  exact ⟨ps, hps, congrArg (·, Outcome.nothing) hstate⟩

theorem writes_closeArray (empty : Bool) (c : OpenContainer) :
    Writes table k outer (⟨.array, empty⟩ :: c :: inner) false [.closeArray] [']'] (c :: inner) false :=
  .single rfl fun _ => ⟨[[']']], rfl, rfl⟩

theorem writes_closeObject (empty : Bool) (c : OpenContainer) :
    Writes table k outer (⟨.object, empty⟩ :: c :: inner) false [.closeObject] ['\x7d'] (c :: inner) false :=
  .single rfl fun _ => ⟨[['\x7d']], rfl, rfl⟩

/-- The comma before a member, if it is not the first, its name and the colon. -/
theorem writes_name (first : Bool) (name : String) :
    Writes table k outer (⟨.object, first⟩ :: inner) false [.key (.value (.str name))]
      ((if first then [] else [',']) ++ (Json.writeString name [] ++ [':']))
      (⟨.object, false⟩ :: inner) true := by
  refine .single rfl fun parts => ?_
  cases first with
  | true => exact ⟨[[':'], Json.writeString name []], by simp, rfl⟩
  | false => exact ⟨[[':'], Json.writeString name [], [',']], by simp, rfl⟩

mutual

/-- Inside a record the text of a value is written for its events. -/
theorem writes_value : ∀ (t : Document) (inner : List OpenContainer) (c : OpenContainer) (n : Bool),
    Writes table k outer (c :: inner) n t.events (lead c n ++ t.text) (filled c n :: inner) false
  | .leaf a, _, c, _ => writes_scalar c a
  | .arr items, inner, c, n => by
    have h := (@writes_openArray _ table k outer inner n c).append
      ((writes_items items true (filled c n :: inner)).append (writes_closeArray _ _))
    rw [events_arr]
    rw [List.append_assoc] at h
    exact h
  | .obj members, inner, c, n => by
    have h := (@writes_openObject _ table k outer inner n c).append
      ((writes_members members true (filled c n :: inner)).append (writes_closeObject _ _))
    rw [events_obj]
    rw [List.append_assoc] at h
    exact h

theorem writes_items : ∀ (items : List Document) (first : Bool) (inner : List OpenContainer),
    Writes table k outer (⟨.array, first⟩ :: inner) false (items.flatMap events)
      (Tree.spellItems .text first items) (⟨.array, first && items.isEmpty⟩ :: inner) false
  | [], first, inner => by
    rw [List.isEmpty_nil, Bool.and_true]
    exact .nil
  | t :: rest, first, inner => by
    have h := (writes_value t inner ⟨.array, first⟩ false).append (writes_items rest false inner)
    rw [List.append_assoc] at h
    rw [List.flatMap_cons, Tree.spellItems, List.isEmpty_cons, Bool.and_false]
    exact h

theorem writes_members : ∀ (members : List (String × Document)) (first : Bool) (inner : List OpenContainer),
    Writes table k outer (⟨.object, first⟩ :: inner) false (members.flatMap memberEvents)
      (Tree.spellMembers .text first members) (⟨.object, first && members.isEmpty⟩ :: inner) false
  | [], first, inner => by
    rw [List.isEmpty_nil, Bool.and_true]
    exact .nil
  | (name, t) :: rest, first, inner => by
    have h := (writes_name first name).append ((writes_value t inner ⟨.object, false⟩ true).append
      (writes_members rest false inner))
    rw [List.append_assoc, List.append_assoc] at h
    rw [List.flatMap_cons, Tree.spellMembers, List.isEmpty_cons, Bool.and_false]
    exact h

end

/-! ## Records and arrays of records -/

/-- The text of a record is read when it closes. -/
theorem closeRecord_eq (table : String) (k : Nat) (outer : List Container) (t : Document)
    {parts : List (List Char)} (h : parts.reverse.flatten = t.text) :
    ∃ next, (inside k outer [] false parts).closeRecord table = (next, t.outcome table) ∧
      ((t.outcome table).refuses = false → next = between (k + 1) outer 0) := by
  have htext : (inside k outer [] false parts).text = t.text := h
  have hread : Json.load .finite t.text = (t.fault? Platform.limits).elim (.ok t.meaning) .error :=
    t.readWithin_text Platform.limits
  rw [closeRecord, htext, hread, Document.outcome]
  rcases t.fault? Platform.limits with _ | _ | d | _ | _
  · rw [Option.elim_none]
    dsimp only
    cases t.meaning.order? with
    | some v => exact ⟨_, rfl, fun _ => rfl⟩
    | none => exact ⟨_, rfl, fun h => absurd h.symm Bool.false_ne_true⟩
  all_goals exact ⟨_, rfl, fun h => absurd h.symm Bool.false_ne_true⟩

/-- What a record brings about. -/
theorem feeds_record (k : Nat) (outer : List Container) {t : Document} (hrecord : t.isRecord = true) (p : Nat) :
    Feeds table p (between k outer 0) t.events [(p + (t.ending table).1, (t.ending table).2)]
      (between (k + count [(p + (t.ending table).1, (t.ending table).2)]) outer 0) := by
  obtain ⟨members, ht⟩ : ∃ members, t = .obj members := by
    cases t with
    | obj members => exact ⟨members, rfl⟩
    | _ => cases hrecord
  have hopen : Feeds table p (between k outer 0) [.openObject] []
      (inside k outer [⟨.object, true⟩] false [['\x7b']]) := .quiet rfl p
  have hmembers := @writes_members _ table k outer members true []
  have hevents : t.events = [.openObject] ++ members.flatMap memberEvents ++ [.closeObject] := by
    rw [ht, events_obj, List.append_assoc]
  have hover : t.overlongAt? Platform.limits =
      ((members.flatMap memberEvents).findIdx? (·.overlong Platform.limits)).map (· + 1) :=
    ht ▸ overlongAt?_obj members
  rw [Document.ending, hover, hevents]
  cases hfirst : (members.flatMap memberEvents).findIdx? (·.overlong Platform.limits) with
  | some i =>
    have hcut := hopen.append (hmembers.cut hfirst (p + 1) [['\x7b']] (between k outer 0))
    have hrefused := hcut.stop rfl [.closeObject] (between k outer 0)
    rwa [List.nil_append, show p + 1 + i + 1 = p + (i + 1 + 1) by omega] at hrefused
  | none =>
    obtain ⟨ps, hps, hfed⟩ := hmembers.whole hfirst (p + 1) [['\x7b']]
    have htext : (['\x7d'] :: (ps ++ [['\x7b']])).reverse.flatten = t.text := by
      rw [ht]
      simp [hps, Document.text, Tree.spell, Spelling.text]
    obtain ⟨next, hclose, hnext⟩ := closeRecord_eq table k outer t htext
    have hstep : (inside k outer [⟨.object, true && members.isEmpty⟩] false (ps ++ [['\x7b']])).step table
        .closeObject = (next, t.outcome table) := hclose
    have hlast := (hopen.append hfed).append (.mark hstep (outcome_ne_nothing table t) _)
    have hsize : p + t.size = p + ([Event.openObject] ++ members.flatMap memberEvents).length + 1 := by
      rw [Document.size, hevents, List.length_append, List.length_singleton]
      omega
    rw [List.nil_append, List.nil_append, ← hsize] at hlast
    refine hlast.weaken fun hs => ?_
    have hok : (t.outcome table).refuses = false := by simpa [stopped] using hs
    rw [hnext hok]
    dsimp only [Option.map_none]
    cases ho : t.outcome table with
    | nothing => exact absurd ho (outcome_ne_nothing table t)
    | record v => rfl
    | refused e => rw [ho] at hok; cases hok

/-- An element of an array of records. -/
theorem feeds_element (root : Bool) (k : Nat) (t : Document) (p : Nat) :
    Feeds table p (between k (records root) 0) t.events (due table root (p, t)).toList
      (between (k + count (due table root (p, t)).toList) (records root) 0) := by
  cases t with
  | obj members => exact feeds_record k (records root) rfl p
  | leaf a =>
    cases root with
    | true => exact .refuse rfl p [] _
    | false => exact .quiet rfl p
  | arr items =>
    cases root with
    | true =>
      rw [events_arr]
      exact .refuse rfl p _ _
    | false =>
      have hskip := (@passes_skipped _ table k (records false)).feeds_items items [] (p + 1)
      have hopen : Feeds table p (between k (records false) 0) [.openArray] []
          (between k (records false) 1) := .quiet rfl p
      rw [events_arr]
      exact hopen.append (hskip.append (.quiet rfl _))

/-- The elements of an array of records. -/
theorem feeds_elements (root : Bool) (items : List Document) (k p : Nat) :
    Feeds table p (between k (records root) 0) (items.flatMap events)
      ((placed p items).filterMap (due table root))
      (between (k + count ((placed p items).filterMap (due table root))) (records root) 0) := by
  induction items generalizing k p with
  | nil => exact .nil p _
  | cons t rest ih =>
    have h := (@feeds_element _ table root k t p).append (ih _ (p + t.size))
    have hmarks : (placed p (t :: rest)).filterMap (due table root) =
        (due table root (p, t)).toList ++ (placed (p + t.size) rest).filterMap (due table root) := by
      rw [placed, List.filterMap_cons]
      cases due table root (p, t) <;> rfl
    rw [List.flatMap_cons, hmarks]
    refine h.weaken ?_
    intro hs
    rw [count_append (not_stopped_left hs), Nat.add_assoc]

/-! ## Documents -/

/-- A value that is a member of a root object. -/
theorem feeds_memberValue (k : Nat) (t : Document) (p : Nat) :
    Feeds table p (outside k [.object]) t.events ((placed (p + 1) t.items).filterMap (due table false))
      (outside (k + count ((placed (p + 1) t.items).filterMap (due table false))) [.object]) := by
  cases t with
  | leaf a => exact .quiet rfl _
  | obj members =>
    have hdeep : Deep [.object, .object] := ⟨by decide, by decide⟩
    have hopen : Feeds table p (outside k [.object]) [.openObject] [] (outside k [.object, .object]) :=
      .quiet rfl p
    rw [events_obj]
    exact hopen.append (((passes_outside hdeep k).feeds_members members [] _).append (.quiet rfl _))
  | arr items =>
    have hopen : Feeds table p (outside k [.object]) [.openArray] [] (between k (records false) 0) :=
      .quiet rfl p
    have hclose (q k : Nat) : Feeds table q (between k (records false) 0) [.closeArray] []
        (outside k [.object]) := .quiet rfl q
    have h := hopen.append ((@feeds_elements _ table false items k (p + 1)).append (hclose _ _))
    rw [List.append_nil] at h
    rw [events_arr]
    exact h

/-- The members of a root object. -/
theorem feeds_members (members : List (String × Document)) (k p : Nat) :
    Feeds table p (outside k [.object]) (members.flatMap memberEvents)
      ((memberElements p members).filterMap (due table false))
      (outside (k + count ((memberElements p members).filterMap (due table false))) [.object]) := by
  induction members generalizing k p with
  | nil => exact .nil p _
  | cons m rest ih =>
    obtain ⟨name, t⟩ := m
    have hkey : Feeds table p (outside k [.object]) [.key (.value (.str name))] []
        (outside k [.object]) := .quiet rfl p
    have h := (hkey.append (feeds_memberValue k t (p + 1))).append (ih _ _)
    rw [List.nil_append, List.length_append, List.length_singleton, ← Nat.add_assoc] at h
    rw [List.flatMap_cons, memberElements, List.filterMap_append]
    refine h.weaken ?_
    intro hs
    rw [count_append (not_stopped_left hs), Nat.add_assoc]
    rfl

/-- A document from its first event to its last. -/
theorem feeds_document (t : Document) (k p : Nat) :
    Feeds table p (outside k []) t.events (t.marks table p) (outside (k + count (t.marks table p)) []) := by
  cases t with
  | leaf a => exact .quiet rfl p
  | arr items =>
    have hopen : Feeds table p (outside k []) [.openArray] [] (between k (records true) 0) := .quiet rfl p
    have hclose (q k : Nat) : Feeds table q (between k (records true) 0) [.closeArray] []
        (outside k []) := .quiet rfl q
    have h := hopen.append ((@feeds_elements _ table true items k (p + 1)).append (hclose _ _))
    rw [List.append_nil] at h
    rw [events_arr]
    exact h
  | obj members =>
    have hopen : Feeds table p (outside k []) [.openObject] [] (outside k [.object]) := .quiet rfl p
    have hclose (q k : Nat) : Feeds table q (outside k [.object]) [.closeObject] [] (outside k []) :=
      .quiet rfl q
    have h := hopen.append ((@feeds_members _ table members k (p + 1)).append (hclose _ _))
    rw [List.append_nil] at h
    rw [events_obj]
    exact h

/-- From the start a document hands over what is due for it. -/
theorem run_document (table : String) (t : Document) :
    (empty.run table [] t.events).2 = handed (t.marks table 0) := by
  have hfeeds := @feeds_document _ table t 0 0
  have htake := hfeeds.handed_take t.events.length
  rwa [List.take_length, List.filter_eq_self.2 fun m hm => by simpa using (hfeeds.within m hm).2] at htake

/-- Documents in a row. -/
theorem feeds_documents (docs : List Document) (k p : Nat) :
    Feeds table p (outside k []) (docs.flatMap events) ((placed p docs).flatMap fun x => x.2.marks table x.1)
      (outside (k + count ((placed p docs).flatMap fun x => x.2.marks table x.1)) []) := by
  induction docs generalizing k p with
  | nil => exact .nil p _
  | cons t rest ih =>
    have h := (@feeds_document _ table t k p).append (ih _ (p + t.size))
    rw [List.flatMap_cons, placed, List.flatMap_cons]
    refine h.weaken ?_
    intro hs
    rw [count_append (not_stopped_left hs), Nat.add_assoc]

end Assembly

end SnapshotStaging
