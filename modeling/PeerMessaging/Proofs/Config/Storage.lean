import PeerMessaging.Config.Document
import PeerMessaging.Proofs.Toml.Library

/-!
# A configuration that was saved is loaded again

The text of a configuration is a document of three sections, and a lawful library parses what it
printed as the tables of the sections again. So it is left to see that each setting is read from its
own entry as it was written there. Two kinds of settings are not written as they are: a span of time
is written as its whole milliseconds, and a level or a format as its word. A span of milliseconds
that does not fit 64 bits is cut off, but what is left does not fit 64 bits with a sign and is
refused by the library, so no span comes back shorter. A log file that is missing has no entry.
-/

namespace PeerMessaging

/-! ## Texts in files -/

namespace Bytes

/-- The loop of `ByteArray.toList` puts the bytes from its index on behind those that are done. -/
theorem toList_loop (bytes : ByteArray) {i : Nat} {done : List UInt8} :
    ByteArray.toList.loop bytes i done = done.reverse ++ bytes.data.toList.drop i := by
  induction i, done using ByteArray.toList.loop.induct bytes with
  | case1 i done more ih =>
      have inside : i < bytes.data.toList.length := more
      have byte : bytes.get! i = bytes.data.toList[i] := getElem!_pos bytes.data i more
      rw [ByteArray.toList.loop, if_pos more, ih, List.drop_eq_getElem_cons inside, byte,
        List.reverse_cons, List.append_assoc]
      rfl
  | case2 i done none =>
      rw [ByteArray.toList.loop, if_neg none, List.drop_eq_nil_of_le (Nat.le_of_not_lt none),
        List.append_nil]

/-- The bytes of a text spell it. -/
theorem toText?_ofText (s : String) : toText? (ofText s) = some s := by
  have bytes : ofText s = s.toByteArray.data.toList := toList_loop s.toUTF8
  rw [toText?, bytes, Array.toArray_toList]
  exact dif_pos s.isValidUTF8

end Bytes

/-! ## Spans of time -/

/-- A span of whole milliseconds. -/
def Duration.IsWhole (d : Duration) : Prop := ∃ n, d = .ofMillis n

/-- A duration of whole milliseconds comes back from their number. -/
theorem Duration.IsWhole.ofMillis_millis {d : Duration} (whole : d.IsWhole) :
    .ofMillis d.millis = d := by
  obtain ⟨n, rfl⟩ := whole
  exact congrArg ofMillis (Nat.mul_div_cancel n (by decide))

/-! ## What can be written -/

/-- The numbers of a section fit 64 bits with a sign. -/
def ServerSettings.Storable (s : ServerSettings) : Prop :=
  s.maxTcpClients.toNat < 2 ^ 63 ∧ s.maxFrameSize.toNat < 2 ^ 63

/-- The spans of a section, in milliseconds, fit 64 bits with a sign. -/
def ConnectionSettings.Storable (c : ConnectionSettings) : Prop :=
  c.idleTcp.millis < 2 ^ 63 ∧ c.idleUdp.millis < 2 ^ 63 ∧ c.connectTimeout.millis < 2 ^ 63

/-- Every span of a section is one of whole milliseconds. -/
structure ConnectionSettings.IsWhole (c : ConnectionSettings) : Prop where
  idleTcp : c.idleTcp.IsWhole
  idleUdp : c.idleUdp.IsWhole
  connectTimeout : c.connectTimeout.IsWhole

namespace Configuration

open Toml

instance (s : ServerSettings) : Decidable s.Storable := inferInstanceAs (Decidable (_ ∧ _))

instance (c : ConnectionSettings) : Decidable c.Storable := inferInstanceAs (Decidable (_ ∧ _))

variable {toml : Library} {c : Configuration}

/-- A table with distinct bare keys and settings for values is plain. -/
theorem plain_of_keys {t : Table} (keys : List String) (named : t.map Prod.fst = keys)
    (bare : ∀ key ∈ keys, Bare key) (distinct : keys.Nodup) (settings : ∀ e ∈ t, e.2.IsSetting) :
    PlainTable t := by
  subst named
  exact ⟨bare, distinct, settings⟩

theorem plain_serverTable (s : ServerSettings) : PlainTable (serverTable s) := by
  refine plain_of_keys ["listen_any", "addresses", "tcp_port", "udp_port", "max_tcp_clients",
    "disable_bind", "max_frame_size"] rfl (by decide) (by decide) ?_
  simp only [serverTable, List.forall_mem_cons, List.not_mem_nil]
  exact ⟨.boolean _, .texts _, .number _, .number _, .number _, .boolean _, .number _, nofun⟩

theorem plain_connectionTable (c : ConnectionSettings) : PlainTable (connectionTable c) := by
  refine plain_of_keys ["idle_tcp", "idle_udp", "connection_timeout_tcp", "version"] rfl
    (by decide) (by decide) ?_
  simp only [connectionTable, spanDatum, List.forall_mem_cons, List.not_mem_nil]
  exact ⟨.number _, .number _, .number _, .number _, nofun⟩

theorem plain_loggingTable (l : LoggingSettings) : PlainTable (loggingTable l) := by
  rw [loggingTable]
  cases l.file with
  | none =>
      refine plain_of_keys ["level", "format", "stdout"] rfl (by decide) (by decide) ?_
      simp only [List.append_nil, List.forall_mem_cons, List.not_mem_nil]
      exact ⟨.string _, .string _, .boolean _, nofun⟩
  | some path =>
      refine plain_of_keys ["level", "format", "stdout", "file"] rfl (by decide) (by decide) ?_
      simp only [List.cons_append, List.nil_append, List.forall_mem_cons, List.not_mem_nil]
      exact ⟨.string _, .string _, .boolean _, .string _, nofun⟩

/-- The sections of a configuration are a document of settings. -/
theorem plain_document (c : Configuration) : PlainDocument c.document where
  names := show ∀ name ∈ ["server", "connection", "logging"], Bare name by decide
  distinct := show ["server", "connection", "logging"].Nodup by decide
  tables := by
    simp only [document, List.forall_mem_cons, List.not_mem_nil]
    exact ⟨plain_serverTable _, plain_connectionTable _, plain_loggingTable _, nofun⟩

/-- A number of a document that was printed fits 64 bits with a sign. -/
theorem lt_of_print (lawful : toml.Lawful) {text : String}
    (printed : toml.print c.document = .ok text) {s : String × Table} (there : s ∈ c.document)
    {key : String} {n : Nat} (member : (key, .integer n) ∈ s.2) : n < 2 ^ 63 := by
  refine Nat.lt_of_not_le fun large => ?_
  have outside : ¬ (-2 ^ 63 ≤ (n : Int) ∧ (n : Int) < 2 ^ 63) := by omega
  obtain ⟨reason, refused⟩ := lawful.refuses c.document s there _ member n rfl outside
  cases printed.symm.trans refused

/-- What is left of a span that was cut off does not fit 64 bits with a sign. -/
theorem millis_lt_of_cut {d : Duration} (fits : min d.millis (2 ^ 64 - 1) < 2 ^ 63) :
    d.millis < 2 ^ 63 := by
  omega

/-- The numbers of a configuration that was printed fit 64 bits with a sign. -/
theorem storable_of_print (lawful : toml.Lawful) {text : String}
    (printed : toml.print c.document = .ok text) :
    c.server.Storable ∧ c.connection.Storable := by
  have server : ("server", serverTable c.server) ∈ c.document := List.mem_cons_self
  have connection : ("connection", connectionTable c.connection) ∈ c.document :=
    List.mem_cons_of_mem _ List.mem_cons_self
  have small {key : String} {n : Nat} := @lt_of_print toml c lawful text printed _ server key n
  have brief {key : String} {d : Duration}
      (member : (key, spanDatum d) ∈ connectionTable c.connection) : d.millis < 2 ^ 63 :=
    millis_lt_of_cut (lt_of_print lawful printed connection member)
  refine ⟨⟨@small "max_tcp_clients" _ ?_, @small "max_frame_size" _ ?_⟩,
    @brief "idle_tcp" _ ?_, @brief "idle_udp" _ ?_, @brief "connection_timeout_tcp" _ ?_⟩
  all_goals simp [serverTable, connectionTable]

/-! ## What is read -/

theorem number?_integer {bound n : Nat} (small : n < bound) :
    number? bound (.integer n) = some n := by
  rw [number?, if_pos ⟨Int.natCast_nonneg n, Int.ofNat_lt.mpr small⟩, Int.toNat_natCast]

theorem port?_integer (p : UInt16) : port? (.integer p.toNat) = some p := by
  rw [port?, number?_integer p.toNat_lt, Option.map_some, UInt16.ofNat_toNat]

theorem size?_integer (n : UInt64) : size? (.integer n.toNat) = some n := by
  rw [size?, number?_integer n.toNat_lt, Option.map_some, UInt64.ofNat_toNat]

/-- A span of whole milliseconds that fit is read as it was written. -/
theorem span?_spanDatum {d : Duration} (whole : d.IsWhole) (small : d.millis < 2 ^ 63) :
    span? (spanDatum d) = some d := by
  have uncut : min d.millis (2 ^ 64 - 1) = d.millis := by omega
  rw [spanDatum, uncut, span?, number?_integer (by omega), Option.map_some,
    whole.ofMillis_millis]

theorem texts?_array (texts : List String) :
    texts? (.array (texts.map .string)) = some texts := by
  show (texts.map Datum.string).mapM text? = _
  induction texts with
  | nil => rfl
  | cons s texts ih =>
      rw [List.map_cons, List.mapM_cons, ih]
      rfl

theorem level?_word (l : LogLevel) : level? (.string l.word) = some l := by
  cases l <;> decide

theorem format?_word (f : LogFormat) : format? (.string f.word) = some f := by
  cases f <;> decide

/-- The `[server]` settings are read back from their table. -/
theorem server?_table (s : ServerSettings) : server? (.named (serverTable s)) = some s := by
  have named : ∀ a b c d e f g : Datum, server? (.named [("listen_any", a), ("addresses", b),
      ("tcp_port", c), ("udp_port", d), ("max_tcp_clients", e), ("disable_bind", f),
      ("max_frame_size", g)]) = (do
        return {
          listenAny := ← boolean? a
          addresses := ← texts? b
          tcpPort := ← port? c
          udpPort := ← port? d
          maxTcpClients := ← size? e
          disableBind := ← boolean? f
          maxFrameSize := ← size? g }) := fun _ _ _ _ _ _ _ => rfl
  rw [serverTable, named, texts?_array, port?_integer, port?_integer, size?_integer,
    size?_integer]
  rfl

/-- The `[connection]` settings are read back from their table if the printer can store them. -/
theorem connection?_table {c : ConnectionSettings} (whole : c.IsWhole) (storable : c.Storable) :
    connection? (.named (connectionTable c)) = some c := by
  have named : ∀ a b d e : Datum, connection? (.named [("idle_tcp", a), ("idle_udp", b),
      ("connection_timeout_tcp", d), ("version", e)]) = (do
        return {
          idleTcp := ← span? a
          idleUdp := ← span? b
          connectTimeout := ← span? d
          version := ← (number? (2 ^ 32) e).map UInt32.ofNat }) := fun _ _ _ _ => rfl
  rw [connectionTable, named, span?_spanDatum whole.idleTcp storable.1,
    span?_spanDatum whole.idleUdp storable.2.1, span?_spanDatum whole.connectTimeout storable.2.2,
    number?_integer c.version.toNat_lt, Option.map_some, UInt32.ofNat_toNat]
  rfl

/-- The `[logging]` settings are read back from their table. -/
theorem logging?_table (l : LoggingSettings) : logging? (.named (loggingTable l)) = some l := by
  obtain ⟨level, format, stdout, file⟩ := l
  have named : ∀ rest : Table, logging? (.named (("level", .string level.word) ::
      ("format", .string format.word) :: ("stdout", .boolean stdout) :: rest)) = (do
        return {
          level := ← level? (.string level.word)
          format := ← format? (.string format.word)
          stdout := stdout
          file := ← Fields.optional none (fun d => (text? d).map some) (.named rest) "file" 3 }) :=
    fun _ => rfl
  rw [loggingTable]
  dsimp only
  cases file with
  | none =>
      rw [List.append_nil, named, level?_word, format?_word]
      rfl
  | some path =>
      rw [List.cons_append, List.cons_append, List.cons_append, named, level?_word, format?_word]
      rfl

/-- The tables of a configuration are the configuration. -/
theorem ofTable?_document (whole : c.connection.IsWhole) (storable : c.connection.Storable) :
    ofTable? (c.document.map fun s => (s.1, .table s.2)) = some c := by
  have named : ∀ a b d : Table, ofTable? [("server", .table a), ("connection", .table b),
      ("logging", .table d)] = (do
        return {
          server := ← server? (.named a)
          connection := ← connection? (.named b)
          logging := ← logging? (.named d) }) := fun _ _ _ => rfl
  show ofTable? [("server", _), ("connection", _), ("logging", _)] = _
  rw [named, server?_table, connection?_table whole storable, logging?_table]
  rfl

/-! ## Saving and loading -/

/-- What becomes of a configuration that is saved with the help of a library. One that is written
has numbers that fit 64 bits with a sign, and one with a number that does not is refused. The text
that is written is read as the configuration, and so is the file. -/
structure Kept (toml : Library) (c : Configuration) : Prop where
  storable : ∀ text, c.toText toml = .ok text → c.server.Storable ∧ c.connection.Storable
  refused : ¬ (c.server.Storable ∧ c.connection.Storable) →
    ∃ reason, c.toText toml = .error (.config (.unserializable reason))
  readBack : ∀ text, c.toText toml = .ok text → ofText toml text = .ok c
  loaded : ∀ fs path fs', save toml fs path c = .ok fs' → load toml fs' path = .ok c

/-- A configuration has a text exactly if the library prints its document. -/
theorem toText_eq_ok {text : String} :
    c.toText toml = .ok text ↔ toml.print c.document = .ok text := by
  rw [toText]
  cases toml.print c.document <;> simp

/-- A configuration is read back from its text. -/
theorem ofText_toText (lawful : toml.Lawful) (whole : c.connection.IsWhole) {text : String}
    (written : c.toText toml = .ok text) : ofText toml text = .ok c := by
  have printed := toText_eq_ok.mp written
  have storable := storable_of_print lawful printed
  rw [ofText, lawful.parse_print c.document text (plain_document c) printed, Option.bind_some,
    ofTable?_document whole storable.2]

/-- The file that was written holds the text. -/
theorem load_save (lawful : toml.Lawful) (whole : c.connection.IsWhole) {fs fs' : FileSystem}
    {path : String} (saved : save toml fs path c = .ok fs') : load toml fs' path = .ok c := by
  rw [save] at saved
  cases written : c.toText toml with
  | error f =>
      rw [written] at saved
      cases saved
  | ok text =>
      rw [written] at saved
      dsimp only at saved
      rw [FileSystem.write] at saved
      cases fault : fs.writeFault? path with
      | some fault' =>
          rw [fault] at saved
          cases saved
      | none =>
          rw [fault] at saved
          obtain rfl := Except.ok.inj saved
          rw [load, FileSystem.read]
          dsimp only
          rw [if_pos rfl]
          dsimp only
          rw [Bytes.toText?_ofText]
          exact ofText_toText lawful whole written

/-- **Saving and loading change nothing**, whatever the settings are and whichever lawful library
prints and parses them, as long as the spans are whole milliseconds: the text of a configuration is
read as the configuration, and so is the file that was saved. -/
theorem saved_kept (toml : Library) (lawful : toml.Lawful) (c : Configuration)
    (whole : c.connection.IsWhole) : c.Kept toml where
  storable := fun _ written => storable_of_print lawful (toText_eq_ok.mp written)
  refused := by
    intro large
    rw [toText]
    cases printed : toml.print c.document with
    | ok text => exact absurd (storable_of_print lawful printed) large
    | error reason => exact ⟨reason, rfl⟩
  readBack := fun _ written => ofText_toText lawful whole written
  loaded := fun _ _ _ saved => load_save lawful whole saved

/-- Addresses with quotes, a backslash and a line break, no detection of idle peers, and a file. -/
def quoted : Configuration where
  server := { listenAny := false, addresses := ["", "\"it's\"", "\\\n'''", "::1"], tcpPort := 0 }
  connection := { idleTcp := .ofMillis 0, idleUdp := .ofMillis 1, version := 0xFFFFFFFF }
  logging := { level := .trace, format := .json, file := some "a = \"b\"" }

/-- The standard library writes this configuration, the text is read as the configuration, and a
frame size of 64 bits is refused. -/
theorem saved_kept_quoted : Library.standard.Lawful ∧ quoted.connection.IsWhole ∧
    (∃ text, quoted.toText .standard = .ok text ∧ ofText .standard text = .ok quoted) ∧
    ∃ reason, toText .standard { quoted with server := { maxFrameSize := 0x8000000000000000 } } =
      .error (.config (.unserializable reason)) := by
  have whole : quoted.connection.IsWhole := ⟨⟨0, rfl⟩, ⟨1, rfl⟩, ⟨3000, rfl⟩⟩
  have kept := saved_kept .standard standard_lawful quoted whole
  obtain ⟨text, printed⟩ : ∃ text, Library.standard.print quoted.document = .ok text :=
    ⟨_, (print_standard quoted.document).trans (if_pos (by decide))⟩
  have written : quoted.toText .standard = .ok text := toText_eq_ok.mpr printed
  refine ⟨standard_lawful, whole, ⟨text, written, kept.readBack text written⟩, ?_⟩
  have large : Kept .standard { quoted with server := { maxFrameSize := 0x8000000000000000 } } :=
    saved_kept .standard standard_lawful _ whole
  exact large.refused (by decide)

end Configuration

end PeerMessaging
