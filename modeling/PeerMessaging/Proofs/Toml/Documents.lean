import PeerMessaging.Proofs.Toml.Values

/-!
# Documents are read back

A document of sections is read line by line: a header opens its table, each binding adds an entry
to it, and an empty line does nothing. A reader of lines is given a bound on their number, which
each line uses up a little of. So what one line does is told as one text leading to another, for
every bound that is large enough, and such steps compose. The names of the sections and the keys
within one must differ, for a table cannot be opened nor a key bound twice.
-/

namespace PeerMessaging.Toml

/-! ## Keys -/

/-- A key that needs no quotes. -/
structure Bare (key : String) : Prop where
  filled : key.toList ≠ []
  bare : ∀ c ∈ key.toList, isBareChar c = true

instance (key : String) : Decidable (Bare key) :=
  decidable_of_iff (key.toList ≠ [] ∧ key.toList.all isBareChar = true)
    ⟨fun h => ⟨h.1, List.all_eq_true.mp h.2⟩, fun h => ⟨h.filled, List.all_eq_true.mpr h.bare⟩⟩

/-- A bare key does not begin with a character that no bare key has. -/
theorem Bare.notAhead {key : String} (bare : Bare key) {x : Char} (foreign : isBareChar x = false)
    (tail : List Char) : NotAhead x (key.toList ++ tail) := by
  obtain ⟨c, front, split⟩ := List.exists_cons_of_ne_nil bare.filled
  have own : isBareChar c = true := bare.bare c (split ▸ List.mem_cons_self ..)
  rw [split]
  exact notAhead_cons (ne_of_class own foreign) _

theorem skipBlanks_of_notAhead {s : List Char} (space : NotAhead ' ' s) (tab : NotAhead '\t' s) :
    skipBlanks s = s := by
  cases s with
  | nil => rfl
  | cons c t =>
      refine List.dropWhile_cons_of_neg ?_
      rw [isBlank, Bool.or_eq_true, beq_iff_eq, beq_iff_eq]
      rintro (rfl | rfl)
      · exact space t rfl
      · exact tab t rfl

variable {key : String} {x : Char} {tail : List Char}

/-- A bare key is read up to the first character that no bare key has. -/
theorem keyPart?_bare (bare : Bare key) (foreign : isBareChar x = false) :
    keyPart? (key.toList ++ x :: tail) = some (key, x :: tail) := by
  have outside : ¬ isBareChar x = true := by rw [foreign]; exact Bool.false_ne_true
  rw [keyPart?.eq_3 _ (bare.notAhead rfl _) (bare.notAhead rfl _),
    List.takeWhile_append_of_pos bare.bare, List.takeWhile_cons_of_neg outside, List.append_nil,
    List.dropWhile_append_of_pos bare.bare, List.dropWhile_cons_of_neg outside,
    if_neg (fun none => bare.filled (List.isEmpty_iff.mp none)), String.ofList_toList]

/-- A key of one part. -/
theorem keyPath?_bare (bare : Bare key) (foreign : isBareChar x = false)
    (last : NotAhead '.' (skipBlanks (x :: tail))) (limit : Nat) :
    keyPath? (limit + 1) (key.toList ++ x :: tail) = some ([key], skipBlanks (x :: tail)) := by
  rw [keyPath?.eq_2, skipBlanks_of_notAhead (bare.notAhead rfl _) (bare.notAhead rfl _),
    keyPart?_bare bare foreign]
  dsimp only
  split
  · rename_i dotted
    exact absurd dotted (last _)
  · rfl

/-! ## Tables -/

/-- No entry has the key. -/
def Absent (key : String) (es : Entries) : Prop := ∀ e ∈ es, e.1 ≠ key

theorem get?_eq_none {es : Entries} (absent : Absent key es) : es.get? key = none := by
  refine List.lookup_eq_none_iff.mpr fun e member => ?_
  exact bne_iff_ne.mpr (absent e member).symm

/-- An entry under a new key is found behind the others. -/
theorem get?_append {es : Entries} (absent : Absent key es) (v : Value) :
    Entries.get? (es ++ [(key, v)]) key = some v := by
  rw [Entries.get?, List.lookup_append]
  show (es.get? key).or _ = _
  rw [get?_eq_none absent, Option.none_or, List.lookup_cons_self]

/-- The value of the last entry is replaced under its key. -/
theorem set_append {es : Entries} (absent : Absent key es) (old v : Value) :
    Entries.set (es ++ [(key, old)]) key v = es ++ [(key, v)] := by
  induction es with
  | nil => exact if_pos rfl
  | cons e es ih =>
      rw [List.cons_append, Entries.set, if_neg (absent e (List.mem_cons_self ..)),
        ih fun d member => absent d (List.mem_cons_of_mem _ member)]
      rfl

/-- The table of a header, after those before it. -/
def tableAt (front : Entries) (name : String) (es : Entries) : Entries :=
  front ++ [(name, .table .header es)]

/-- A header with a new name opens an empty table behind the others. -/
theorem openTable_eq {front : Entries} (absent : Absent key front) :
    atHeader openTable [key] front = some (tableAt front key []) := by
  show openTable key front = _
  rw [openTable, get?_eq_none absent]
  rfl

/-- A binding goes to the table that was opened last. -/
theorem modifyAt_tableAt {front es : Entries} {name : String} (absent : Absent name front)
    (new : Absent key es) (v : Value) :
    modifyAt false (addDotted [key] v) [name] .header (tableAt front name es)
      = some (tableAt front name (es ++ [(key, v)])) := by
  have added : addDotted [key] v .header es = some (es ++ [(key, v)]) := by
    show addNew key v es = _
    rw [addNew, get?_eq_none new]
  rw [modifyAt.eq_2, tableAt, get?_append absent]
  dsimp only
  rw [if_neg (by decide), modifyAt.eq_1, added]
  dsimp only
  rw [set_append absent]
  rfl

/-! ## Lines -/

/-- Reading on from one text is the same as reading on from another, if there is enough left of the
bound. -/
def Leads (d : Draft) (s : List Char) (d' : Draft) (s' : List Char) : Prop :=
  ∀ bound, s.length < bound →
    ∃ bound', s'.length < bound' ∧ lines? bound d s = lines? bound' d' s'

section

variable {d d' d'' : Draft} {s s' s'' rest : List Char}

theorem Leads.refl (d : Draft) (s : List Char) : Leads d s d s :=
  fun bound long => ⟨bound, long, rfl⟩

/-- Reading on composes. -/
theorem Leads.trans (first : Leads d s d' s') (second : Leads d' s' d'' s'') :
    Leads d s d'' s'' := by
  intro bound long
  obtain ⟨bound', long', same⟩ := first bound long
  obtain ⟨bound'', long'', same'⟩ := second bound' long'
  exact ⟨bound'', long'', same.trans same'⟩

/-- One line and its end. -/
theorem leads_line (front : skipBlanks s = s) (line : line? d s = some (d', '\n' :: rest))
    (shorter : rest.length < s.length) : Leads d s d' rest := by
  intro bound long
  obtain ⟨b, rfl⟩ : ∃ b, bound = b + 1 := ⟨bound - 1, by omega⟩
  refine ⟨b, by omega, ?_⟩
  rw [lines?.eq_2, front]
  cases s with
  | nil => exact absurd shorter (Nat.not_lt_zero _)
  | cons c s =>
      dsimp only
      rw [line]
      rfl

theorem leads_empty : Leads d ('\n' :: s) d s :=
  leads_line rfl rfl (Nat.lt_succ_self _)

/-- A header is read as the opening of its table. -/
theorem leads_header {front : Entries} {place : List String} {name : String} (bare : Bare name)
    (absent : Absent name front) (rest : List Char) :
    Leads ⟨front, place⟩ ('[' :: (name.toList ++ ']' :: '\n' :: rest))
      ⟨tableAt front name [], [name]⟩ rest := by
  have path : headerPath? 1 (name.toList ++ ']' :: '\n' :: rest) = some ([name], '\n' :: rest) := by
    rw [headerPath?, depthLimit, keyPath?_bare bare rfl (notAhead_cons (by decide) _)]
    rfl
  refine leads_line rfl ?_ ?_
  · rw [line?.eq_2 _ _ (bare.notAhead rfl _), header?, if_neg Bool.false_ne_true, path]
    dsimp only
    rw [if_neg Bool.false_ne_true, openTable_eq absent]
    rfl
  · simp only [List.length_cons, List.length_append]
    omega

/-- The line of an entry. -/
def entryLine (e : String × Value) : List Char :=
  e.1.toList ++ " = ".toList ++ writeValue e.2 ++ ['\n']

/-- The line of an entry is read as its key and its value. -/
theorem binding?_entry {v : Value} (bare : Bare key) (plain : Plain depthLimit v)
    (rest : List Char) :
    binding? (value? depthLimit) (entryLine (key, v) ++ rest)
      = some (([key], v), '\n' :: rest) := by
  have text : entryLine (key, v) ++ rest
      = key.toList ++ ' ' :: '=' :: ' ' :: (writeValue v ++ '\n' :: rest) := by
    simp [entryLine]
  have path : keyPath? depthLimit (key.toList ++
      ' ' :: '=' :: ' ' :: (writeValue v ++ '\n' :: rest))
        = some ([key], '=' :: ' ' :: (writeValue v ++ '\n' :: rest)) :=
    keyPath?_bare bare rfl (notAhead_cons (by decide) _) _
  rw [text, binding?, path]
  -- one blank is left before the value
  show (value? depthLimit (skipBlanks (writeValue v ++ '\n' :: rest))).map _ = _
  rw [skipBlanks_of_notAhead (plain.notAhead rfl _) (plain.notAhead rfl _),
    value?_writeValue plain (ends_cons (.inl rfl) _)]
  rfl

/-- The line of an entry adds the entry to the open table. -/
theorem leads_entry {front es : Entries} {name : String} {v : Value} (bare : Bare key)
    (plain : Plain depthLimit v) (absent : Absent name front) (new : Absent key es)
    (rest : List Char) :
    Leads ⟨tableAt front name es, [name]⟩ (entryLine (key, v) ++ rest)
      ⟨tableAt front name (es ++ [(key, v)]), [name]⟩ rest := by
  have ahead : ∀ {x}, isBareChar x = false → NotAhead x (entryLine (key, v) ++ rest) := by
    intro x foreign
    rw [entryLine, List.append_assoc, List.append_assoc, List.append_assoc]
    exact bare.notAhead foreign _
  refine leads_line (skipBlanks_of_notAhead (ahead rfl) (ahead rfl)) ?_ ?_
  · rw [line?.eq_6 _ _ (fun _ => ahead rfl _) (ahead rfl) (ahead rfl) (ahead rfl) (ahead rfl),
      bind?, binding?_entry bare plain]
    dsimp only
    rw [modifyAt_tableAt absent new]
    rfl
  · simp only [entryLine, List.length_append, List.length_singleton]
    omega

end

/-! ## Sections -/

/-- A section that can be written: its name and its keys need no quotes and no key comes twice. -/
structure Writable (name : String) (es : Entries) : Prop where
  name : Bare name
  keys : ∀ e ∈ es, Bare e.1
  values : ∀ e ∈ es, Plain depthLimit e.2
  distinct : (es.map Prod.fst).Nodup

theorem writeEntries_eq (es : Entries) :
    (writeEntries es).flatMap (· ++ ['\n']) = es.flatMap entryLine := by
  induction es with
  | nil => rfl
  | cons e es ih =>
      rw [writeEntries, List.flatMap_cons, List.flatMap_cons, ih]
      rfl

/-- Among distinct keys, each key is new to the entries before it. -/
theorem absent_of_nodup {front : Entries} {e : String × Value} {es : Entries}
    (distinct : ((front ++ e :: es).map Prod.fst).Nodup) : Absent e.1 front := by
  intro d member same
  rw [List.map_append, List.map_cons] at distinct
  have apart := (List.nodup_append.mp distinct).2.2
  exact apart d.1 (List.mem_map_of_mem member) e.1 (List.mem_cons_self ..) same

/-- The entries of a section, one after the other. -/
theorem leads_entries {front : Entries} {name : String} (absent : Absent name front)
    {es : Entries} : ∀ done : Entries, (∀ e ∈ es, Bare e.1 ∧ Plain depthLimit e.2) →
      ((done ++ es).map Prod.fst).Nodup → ∀ rest,
        Leads ⟨tableAt front name done, [name]⟩ (es.flatMap entryLine ++ rest)
          ⟨tableAt front name (done ++ es), [name]⟩ rest := by
  induction es with
  | nil =>
      intro done _ _ rest
      rw [List.append_nil]
      exact .refl _ _
  | cons e es ih =>
      intro done all distinct rest
      obtain ⟨bare, plain⟩ := all e (List.mem_cons_self ..)
      have first := leads_entry bare plain absent (absent_of_nodup distinct)
        (es.flatMap entryLine ++ rest)
      rw [List.append_cons] at distinct
      have later := ih (done ++ [e]) (fun d member => all d (List.mem_cons_of_mem _ member))
        distinct rest
      rw [List.flatMap_cons, List.append_assoc, List.append_cons]
      exact first.trans later

/-- The text of a section is read as its table, behind the tables before. -/
theorem leads_section {front : Entries} {place : List String} {name : String} {es : Entries}
    (writable : Writable name es) (absent : Absent name front) (rest : List Char) :
    Leads ⟨front, place⟩ (writeSection name es ++ rest) ⟨tableAt front name es, [name]⟩ rest := by
  have text : writeSection name es ++ rest
      = '[' :: (name.toList ++ ']' :: '\n' :: (es.flatMap entryLine ++ rest)) := by
    rw [writeSection, writeEntries_eq]
    simp
  have all : ∀ e ∈ es, Bare e.1 ∧ Plain depthLimit e.2 :=
    fun e member => ⟨writable.keys e member, writable.values e member⟩
  rw [text]
  exact (leads_header writable.name absent _).trans
    (leads_entries absent [] all writable.distinct rest)

/-- The tables of some sections. -/
def tables (sections : List (String × Entries)) : Entries :=
  sections.map fun (name, es) => (name, .table .header es)

/-- The texts of all sections are read as their tables, in order. -/
theorem leads_sections {sections : List (String × Entries)} :
    ∀ (front : Entries) (place : List String), (∀ s ∈ sections, Writable s.1 s.2) →
      ((front ++ tables sections).map Prod.fst).Nodup →
      ∃ place', Leads ⟨front, place⟩
        (joined ['\n'] (sections.map fun (name, es) => writeSection name es))
        ⟨front ++ tables sections, place'⟩ [] := by
  induction sections with
  | nil =>
      intro front place _ _
      have none : front ++ tables [] = front := List.append_nil front
      rw [none]
      exact ⟨place, .refl _ _⟩
  | cons s sections ih =>
      intro front place all distinct
      obtain ⟨name, es⟩ := s
      have writable := all _ (List.mem_cons_self ..)
      have absent : Absent name front := absent_of_nodup distinct
      have split : front ++ tables ((name, es) :: sections)
          = tableAt front name es ++ tables sections := List.append_cons ..
      rw [split] at distinct ⊢
      have own : ∀ rest, Leads ⟨front, place⟩ (writeSection name es ++ rest)
          ⟨tableAt front name es, [name]⟩ rest := leads_section writable absent
      -- an empty line stands between two sections, and none behind the last
      cases sections with
      | nil =>
          refine ⟨[name], ?_⟩
          have only := own []
          rw [List.append_nil] at only
          show Leads _ (List.intercalate _ [_]) _ _
          rw [List.intercalate_singleton]
          show Leads _ _ ⟨tableAt front name es ++ [], _⟩ _
          rw [List.append_nil]
          exact only
      | cons t sections =>
          obtain ⟨place', later⟩ := ih _ [name]
            (fun d member => all d (List.mem_cons_of_mem _ member)) distinct
          refine ⟨place', ?_⟩
          show Leads _ (List.intercalate _ (_ :: _ :: _)) _ _
          rw [List.intercalate_cons_cons, List.append_assoc]
          exact (own _).trans (leads_empty.trans later)

/-- **A document is read back**: of sections that can be written and have different names, each
table is found again with its entries in order. -/
theorem read?_write {sections : List (String × Entries)} (all : ∀ s ∈ sections, Writable s.1 s.2)
    (distinct : (sections.map Prod.fst).Nodup) :
    read? (write sections) = some (tables sections) := by
  obtain ⟨place, leads⟩ := leads_sections [] [] all
    (by simpa [tables, Function.comp_def] using distinct)
  have unmarked : skipMark (write sections).toList
      = joined ['\n'] (sections.map fun (name, es) => writeSection name es) := by
    rw [write, String.toList_ofList]
    cases sections with
    | nil => rfl
    | cons s sections => cases sections <;> rfl
  rw [read?, unmarked]
  obtain ⟨bound, long, same⟩ := leads _ (Nat.lt_succ_self _)
  obtain ⟨b, rfl⟩ := Nat.exists_eq_add_of_lt long
  exact same

end PeerMessaging.Toml
