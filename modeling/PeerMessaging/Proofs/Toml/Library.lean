import Mathlib.Logic.Basic
import PeerMessaging.Proofs.Toml.Documents
import PeerMessaging.Toml.Library

/-!
# Lawful TOML libraries

Two laws are asked of a library that stores settings: a document of settings that it prints is
parsed as the same table, and it refuses an integer that does not fit 64 bits with a sign. Settings
are texts, truth values, numbers and lists of texts under keys that need no quotes.

The standard library keeps both laws, the first because documents are read back.
-/

namespace PeerMessaging.Toml

/-- The data that settings have. -/
inductive Datum.IsSetting : Datum → Prop
  | string (s : String) : IsSetting (.string s)
  | boolean (b : Bool) : IsSetting (.boolean b)
  | number (n : Nat) : IsSetting (.integer n)
  | texts (l : List String) : IsSetting (.array (l.map .string))

/-- A table of settings under different keys. -/
structure PlainTable (t : Table) : Prop where
  keys : ∀ key ∈ t.map Prod.fst, Bare key
  distinct : (t.map Prod.fst).Nodup
  settings : ∀ e ∈ t, e.2.IsSetting

/-- A document of such tables under different names. -/
structure PlainDocument (document : List (String × Table)) : Prop where
  names : ∀ name ∈ document.map Prod.fst, Bare name
  distinct : (document.map Prod.fst).Nodup
  tables : ∀ s ∈ document, PlainTable s.2

/-- The laws of a library. -/
structure Library.Lawful (toml : Library) : Prop where
  parse_print : ∀ document text, PlainDocument document → toml.print document = .ok text →
    toml.parse text = some (document.map fun s => (s.1, .table s.2))
  refuses : ∀ document, ∀ s ∈ document, ∀ e ∈ s.2, ∀ n : Int, e.2 = .integer n →
    ¬ (-2 ^ 63 ≤ n ∧ n < 2 ^ 63) → ∃ reason, toml.print document = .error reason

/-! ## The standard library -/

theorem dataOf_valuesOf_texts (l : List String) :
    dataOf (valuesOf (l.map Datum.string)) = l.map Datum.string := by
  induction l with
  | nil => rfl
  | cons s l ih => exact congrArg (Datum.string s :: ·) ih

/-- A setting is the data of the value that spells it. -/
theorem Datum.IsSetting.datum_value {d : Datum} (setting : d.IsSetting) : d.value.datum = d := by
  cases setting with
  | texts l => exact congrArg Datum.array (dataOf_valuesOf_texts l)
  | _ => rfl

theorem valuesOf_texts (l : List String) : valuesOf (l.map Datum.string) = l.map Value.string := by
  induction l with
  | nil => rfl
  | cons s l ih => exact congrArg (Value.string s :: ·) ih

/-- A setting that fits is spelled by a value that is read back. -/
theorem Datum.IsSetting.plain {d : Datum} (setting : d.IsSetting) (fits : d.fits = true) :
    Plain depthLimit d.value := by
  cases setting with
  | string s => exact .string s
  | boolean b => exact .boolean b
  | number n =>
      rw [Datum.fits, decide_eq_true_eq] at fits
      exact .integer (Int.ofNat_lt.mp fits.2)
  | texts l =>
      rw [Datum.value, valuesOf_texts]
      refine .array fun v member => ?_
      obtain ⟨s, -, rfl⟩ := List.mem_map.mp member
      exact .string s

/-- A table of settings comes back from its entries. -/
theorem tableOf_entriesOf {t : Table} (settings : ∀ e ∈ t, e.2.IsSetting) :
    tableOf (entriesOf t) = t := by
  induction t with
  | nil => rfl
  | cons e t ih =>
      obtain ⟨head, tail⟩ := List.forall_mem_cons.mp settings
      rw [entriesOf, tableOf, head.datum_value, ih tail]

theorem entriesOf_eq (t : Table) : entriesOf t = t.map fun e => (e.1, e.2.value) := by
  induction t with
  | nil => rfl
  | cons e t ih => rw [entriesOf, ih, List.map_cons]

/-- A table fits exactly if each of its data does. -/
theorem tableFits_iff (t : Table) : tableFits t = true ↔ ∀ e ∈ t, e.2.fits = true := by
  induction t with
  | nil => simp [tableFits]
  | cons e t ih => rw [tableFits, Bool.and_eq_true, ih, List.forall_mem_cons]

/-- The standard library prints precisely the documents whose integers all fit. -/
theorem print_standard (document : List (String × Table)) :
    Library.standard.print document =
      if ∀ s ∈ document, ∀ e ∈ s.2, e.2.fits = true then
        .ok (write (document.map fun s => (s.1, entriesOf s.2)))
      else .error "out-of-range value for u64 type" := by
  refine if_congr ?_ rfl rfl
  rw [List.all_eq_true]
  exact forall₂_congr fun s _ => tableFits_iff s.2

/-- The sections of a plain document that fits can be written. -/
theorem writable_entriesOf {document : List (String × Table)} (plain : PlainDocument document)
    (fits : ∀ s ∈ document, ∀ e ∈ s.2, e.2.fits = true) :
    ∀ s ∈ document.map (fun s => (s.1, entriesOf s.2)), Writable s.1 s.2 := by
  intro s member
  obtain ⟨s, there, rfl⟩ := List.mem_map.mp member
  dsimp only
  rw [entriesOf_eq]
  have table := plain.tables s there
  refine ⟨plain.names _ (List.mem_map_of_mem there), fun e member => ?_, fun e member => ?_, ?_⟩
  · obtain ⟨e, inside, rfl⟩ := List.mem_map.mp member
    exact table.keys _ (List.mem_map_of_mem inside)
  · obtain ⟨e, inside, rfl⟩ := List.mem_map.mp member
    exact (table.settings e inside).plain (fits s there e inside)
  · rw [List.map_map]
    exact table.distinct

/-- The tables of a plain document are read back as the document. -/
theorem tableOf_tables {document : List (String × Table)} (plain : PlainDocument document) :
    tableOf (tables (document.map fun s => (s.1, entriesOf s.2))) =
      document.map fun s => (s.1, .table s.2) := by
  have settings := plain.tables
  clear plain
  induction document with
  | nil => rfl
  | cons s document ih =>
      obtain ⟨head, tail⟩ := List.forall_mem_cons.mp settings
      show (s.1, Datum.table (tableOf (entriesOf s.2))) ::
        tableOf (tables (document.map fun s => (s.1, entriesOf s.2))) = _
      rw [tableOf_entriesOf head.settings, ih tail, List.map_cons]

/-- **The standard library is lawful.** -/
theorem standard_lawful : Library.standard.Lawful where
  parse_print := by
    intro document text plain printed
    rw [print_standard] at printed
    split at printed
    · rename_i fits
      obtain rfl := Except.ok.inj printed
      have distinct : ((document.map fun s => (s.1, entriesOf s.2)).map Prod.fst).Nodup := by
        rw [List.map_map]
        exact plain.distinct
      show (read? _).map tableOf = _
      rw [read?_write (writable_entriesOf plain fits) distinct, Option.map_some,
        tableOf_tables plain]
    · cases printed
  refuses := by
    intro document s there e inside n same large
    refine ⟨_, (print_standard document).trans (if_neg fun fits => large ?_)⟩
    have fit := fits s there e inside
    rw [same, Datum.fits, decide_eq_true_eq] at fit
    exact fit

end PeerMessaging.Toml
