import CapsuleEmit.RustLedger.MeshReader

namespace CapsuleEmit
namespace RustLedger

open Python (Unbroken isLineBreak splitlines translateNewlines)

/-!
# The lines Python reads

A record is written without control characters, so its text has a line break
of Python only where serde_json leaves one in a string.  Without any the
Python reader makes one entry of each record, in order.  A text that starts
like a record and is none is an error, or one entry more.
-/

variable {Time : Type}

/-! ## Texts -/

/-- The ends of lines that serde_json writes as they are. -/
def separators : List Char := ['\u0085', '\u2028', '\u2029']

/-- A record that Python reads from one line. -/
structure Readable (record : Value) : Prop where
  whole : ∀ c ∈ record.text.toList, c ∉ separators
  converts : record.tree.everyNumber ArtifactStore.Python.converts = true

/-- The characters of printed text are no control characters. -/
theorem toNat_of_printed {chars : List Char}
    (printed : JsonText.Printed (chars.flatMap String.utf8EncodeChar)) :
    ∀ c ∈ chars, 32 ≤ c.toNat := by
  intro c inside
  by_contra small
  have ascii : String.utf8EncodeChar (Char.ofNat c.toNat) = [UInt8.ofNat c.toNat] :=
    Utf8.encode_ascii (by omega)
  rw [Char.ofNat_toNat] at ascii
  have byte := printed (UInt8.ofNat c.toNat)
    (List.mem_flatMap.mpr ⟨c, inside, by rw [ascii]; exact List.mem_singleton_self _⟩)
  rw [UInt8.le_iff_toNat_le, UInt8.toNat_ofNat'] at byte
  simp at byte
  omega

theorem text_toNat (record : Value) : ∀ c ∈ record.text.toList, 32 ≤ c.toNat := by
  apply toNat_of_printed
  rw [← Utf8.utf8_eq_flatMap, utf8_text]
  exact JsonText.printed_write record.tree

theorem not_return {chars : List Char} (visible : ∀ c ∈ chars, 32 ≤ c.toNat) :
    '\r' ∉ chars := fun inside => absurd (visible _ inside) (by decide)

/-- A line break is a control character or one of the separators. -/
theorem isLineBreak_cases {c : Char} (ends : isLineBreak c = true) :
    c.toNat < 32 ∨ c ∈ separators := by
  simp only [isLineBreak, Bool.or_eq_true, decide_eq_true_eq] at ends
  rcases ends with ((((((((rfl | rfl) | rfl) | rfl) | rfl) | rfl) | rfl) | rfl) | rfl) | rfl <;>
    first | exact Or.inl (by decide) | exact Or.inr (by decide)

theorem Readable.unbroken {record : Value} (readable : Readable record) :
    Unbroken record.text.toList := by
  intro c inside
  by_contra ends
  rcases isLineBreak_cases (by simpa using ends) with control | separator
  · exact absurd (text_toNat record c inside) (Nat.not_le.mpr control)
  · exact readable.whole c inside separator

theorem asObject_of_capsuleId {record : Value} {id : String}
    (named : record.capsuleId = some id) : ∃ members, record.tree = .object members := by
  rw [Value.capsuleId, Value.str?] at named
  rcases Option.bind_eq_some_iff.mp named with ⟨member, found, -⟩
  cases tree : record.tree with
  | object members => exact ⟨members, rfl⟩
  | _ => simp [tree, Json.get] at found

/-- The bytes of an object start with a brace. -/
theorem toText_head {record : Value} {id : String} (named : record.capsuleId = some id) :
    ∃ rest, record.toText = 123 :: rest := by
  rcases asObject_of_capsuleId named with ⟨members, tree⟩
  rw [Value.toText, tree]
  cases members with
  | nil => exact ⟨_, by rw [JsonText.write]⟩
  | cons member members => exact ⟨_, by rw [JsonText.write]⟩

/-- Characters whose bytes start with a brace start with a brace. -/
theorem head_of_brace {chars : List Char} {rest : Bytes}
    (bytes : chars.flatMap String.utf8EncodeChar = 123 :: rest) :
    ∃ more, chars = '{' :: more := by
  cases chars with
  | nil => cases bytes
  | cons c chars =>
      have brace : String.utf8EncodeChar '{' = [123] := by decide
      rw [List.flatMap_cons] at bytes
      have same : String.utf8EncodeChar c ++ chars.flatMap String.utf8EncodeChar =
          String.utf8EncodeChar '{' ++ rest := by
        rw [bytes, brace]
        rfl
      exact ⟨chars, by rw [ Utf8.encode_prefix same]⟩

theorem text_head {record : Value} {id : String} (named : record.capsuleId = some id) :
    ∃ rest, record.text.toList = '{' :: rest := by
  rcases toText_head named with ⟨rest, same⟩
  apply @head_of_brace _ rest
  rw [← Utf8.utf8_eq_flatMap, utf8_text, same]

theorem pythonBlank_brace (rest : List Char) :
    Produce.pythonBlank (String.ofList ('{' :: rest)) = false := by
  rw [Produce.pythonBlank, String.toList_ofList, List.all_cons]
  rfl

/-- The text of a file of records and what follows them. -/
theorem utf8?_journal (records : List Value) (tail : List Char) :
    utf8? (Lines.join newline (records.map Value.toText) (tail.flatMap String.utf8EncodeChar)) =
      some (String.ofList
        (Lines.join '\n' (records.map (fun record => record.text.toList)) tail)) := by
  have bytes : Lines.join newline (records.map Value.toText)
      (tail.flatMap String.utf8EncodeChar) = utf8 (String.ofList
        (Lines.join '\n' (records.map (fun record => record.text.toList)) tail)) := by
    rw [Utf8.utf8_eq_flatMap, String.toList_ofList]
    induction records with
    | nil => rfl
    | cons record records ih =>
        have line : String.utf8EncodeChar '\n' = [newline] := by decide
        rw [List.map_cons, List.map_cons, Lines.join_cons, Lines.join_cons, List.flatMap_append,
          List.flatMap_cons, line, ih, ← Utf8.utf8_eq_flatMap, utf8_text]
        rfl
  rw [bytes, utf8?_utf8]

/-- No newline of the text is translated. -/
theorem translateNewlines_journal (records : List Value) {tail : List Char}
    (visible : ∀ c ∈ tail, 32 ≤ c.toNat) :
    translateNewlines (Lines.join '\n' (records.map (fun record => record.text.toList)) tail) =
      Lines.join '\n' (records.map (fun record => record.text.toList)) tail := by
  apply Python.translateNewlines_eq_self
  rw [Lines.join, List.mem_append, not_or]
  refine ⟨fun inside => ?_, not_return visible⟩
  rcases List.mem_flatMap.mp inside with ⟨line, member, inside⟩
  rcases List.mem_map.mp member with ⟨record, -, rfl⟩
  rcases List.mem_append.mp inside with inside | inside
  · exact not_return (text_toNat record) inside
  · exact absurd (List.mem_singleton.mp inside) (by decide)

/-- The lines Python reads from a file of readable records and what follows them. -/
theorem splitlines_journal {records : List Value}
    (readable : ∀ record ∈ records, Readable record) {tail : List Char}
    (visible : ∀ c ∈ tail, 32 ≤ c.toNat) :
    splitlines (translateNewlines
        (Lines.join '\n' (records.map (fun record => record.text.toList)) tail)) =
      records.map (fun record => record.text.toList) ++ splitlines tail := by
  rw [translateNewlines_journal records visible]
  apply Python.splitlines_join
  intro line inside
  rcases List.mem_map.mp inside with ⟨record, member, rfl⟩
  exact (readable record member).unbroken

/-! ## Entries -/

/-- The log has read these records. -/
structure Copied (records : List Value) (log : MeshLog Time) : Prop where
  lines : log.lines = records.map Value.tree
  numbers : log.entries.map MeshEntry.seq = List.range' 1 records.length
  values : log.entries.map (fun entry => some entry.value) =
    records.map (fun record => record.capsuleId.bind Python.fromHex)
  records : ∀ id, log.records id = records.findIdx? (fun record =>
    !isPadding record && record.capsuleId = some id)

theorem copied_empty : Copied [] (MeshLog.empty : MeshLog Time) :=
  ⟨rfl, rfl, rfl, fun _ => rfl⟩

/-- A record whose Capsule ID is a digest. -/
def Named (record : Value) : Prop := ∃ id, record.capsuleId = some id ∧ IsDigest id

theorem validId_of_isDigest {id : String} (digest : IsDigest id) :
    ArtifactStore.validId id = true := by
  rcases digest with ⟨bytes, length, rfl⟩
  simp [ArtifactStore.validId, Sha256.length_utf8_hex, length, Sha256.utf8_hex_all]

theorem Copied.add {records : List Value} {log : MeshLog Time} (copied : Copied records log)
    (reader : Reader Time) (number : Nat) {record : Value} (named : Named record) :
    ∃ log', log.add reader number record.tree = .ok log' ∧ Copied (records ++ [record]) log' := by
  rcases named with ⟨id, named, digest⟩
  have valid := validId_of_isDigest digest
  rcases digest with ⟨bytes, -, rfl⟩
  have member : memberText "capsule_id" record.tree = some (Sha256.hex bytes) := named
  have kind : memberText "record_type" record.tree = record.str? "record_type" := rfl
  have count : log.entries.length = records.length := by
    have lengths := congrArg List.length copied.numbers
    rwa [List.length_map, List.length_range'] at lengths
  have total : log.lines.length = records.length := by rw [copied.lines, List.length_map]
  have filtered : Option.filter ArtifactStore.validId (some (Sha256.hex bytes)) =
      some (Sha256.hex bytes) := by simp [Option.filter, valid]
  simp only [MeshLog.add, member, filtered, Option.elim_some, ok_bind, Python.fromHex_hex, kind,
    pure_eq_ok, Except.ok.injEq, exists_eq_left']
  refine ⟨?_, ?_, ?_, ?_⟩
  · simp [copied.lines]
  · simp [copied.numbers, count, List.range'_concat, Nat.add_comm]
  · simp [copied.values, named, Python.fromHex_hex]
  · intro other
    have padding : isPadding record = decide (record.str? "record_type" = some "padding") := rfl
    rw [List.findIdx?_append, ← copied.records, List.findIdx?_singleton, named, padding]
    dsimp only
    by_cases same : other = Sha256.hex bytes
    · subst same
      cases held : log.records (Sha256.hex bytes) with
      | none =>
          by_cases kind : record.str? "record_type" = some "padding"
          · simp [kind, held]
          · simp [kind, total]
      | some place => simp [held]
    · have different : ¬ Sha256.hex bytes = other := fun equal => same equal.symm
      simp only [different, Option.some.injEq, decide_false, Bool.and_false, Bool.false_eq_true,
        if_false, Option.map_none, Option.or_none]
      split
      · rw [Function.update_of_ne same]
      · rfl

/-- A line with a record on it is read. -/
theorem jsonLine_text {reader : Reader Time} (lawful : reader.Lawful) (number : Nat)
    {record : Value} (named : Named record) (shallow : record.tree.nesting ≤ decoderLevels)
    (readable : Readable record) : jsonLine reader number record.text = .ok record.tree := by
  rcases named with ⟨id, named, -⟩
  rcases asObject_of_capsuleId named with ⟨members, tree⟩
  rw [jsonLine, lawful.reads record shallow readable.converts, tree]
  rfl

/-- The lines of readable records are read, and what follows them is read after them. -/
theorem readMesh_journal {reader : Reader Time} (lawful : reader.Lawful) {records : List Value}
    (named : ∀ record ∈ records, Named record)
    (shallow : ∀ record ∈ records, record.tree.nesting ≤ decoderLevels)
    (readable : ∀ record ∈ records, Readable record) {front : List Value} {log : MeshLog Time}
    (copied : Copied front log) (number : Nat) (more : List (List Char)) :
    ∃ log', Copied (front ++ records) log' ∧
      readMesh reader number (records.map (fun record => record.text.toList) ++ more) log =
        readMesh reader (number + records.length) more log' := by
  induction records generalizing front log number with
  | nil => exact ⟨log, by rwa [List.append_nil], rfl⟩
  | cons record records ih =>
      rw [List.forall_mem_cons] at named shallow readable
      rcases copied.add reader number named.1 with ⟨next, added, copied'⟩
      rcases ih named.2 shallow.2 readable.2 copied' (number + 1) with ⟨log', final, rest⟩
      rw [List.append_assoc, List.singleton_append] at final
      refine ⟨log', final, ?_⟩
      rcases named.1 with ⟨id, stored, -⟩
      rcases text_head stored with ⟨chars, head⟩
      have solid : Produce.pythonBlank record.text = false := by
        have brace := pythonBlank_brace chars
        rwa [← head, String.ofList_toList] at brace
      have count : number + (record :: records).length = number + 1 + records.length := by
        rw [List.length_cons]
        omega
      rw [List.map_cons, List.cons_append, readMesh, String.ofList_toList, solid,
        if_neg Bool.false_ne_true, jsonLine_text lawful number named.1 shallow.1 readable.1, count]
      simp only [ok_bind, added, rest]

theorem MeshLog.add_entries {reader : Reader Time} {log log' : MeshLog Time} {number : Nat}
    {line : Json} (added : log.add reader number line = .ok log') :
    log'.entries.length = log.entries.length + 1 := by
  simp only [MeshLog.add, bind_eq_ok_iff, pure_eq_ok, Except.ok.injEq] at added
  rcases added with ⟨id, -, value, -, same⟩
  simp [← same]

theorem readMesh_entries {reader : Reader Time} {number : Nat} {texts : List (List Char)}
    {log log' : MeshLog Time} (read : readMesh reader number texts log = .ok log') :
    log.entries.length ≤ log'.entries.length := by
  induction texts generalizing number log with
  | nil =>
      cases read
      exact le_refl _
  | cons text texts ih =>
      rw [readMesh] at read
      split at read
      · exact ih read
      · rcases bind_eq_ok_iff.mp read with ⟨line, -, read⟩
        rcases bind_eq_ok_iff.mp read with ⟨next, added, read⟩
        have grown := MeshLog.add_entries added
        have rest := ih read
        omega

/-- A text that starts with a brace is an error, or at least one entry. -/
theorem readMesh_brace {reader : Reader Time} {number : Nat} {rest : List Char}
    {log log' : MeshLog Time}
    (read : readMesh reader number (splitlines ('{' :: rest)) log = .ok log') :
    log.entries.length < log'.entries.length := by
  rcases Python.splitlines_head (by decide : isLineBreak '{' = false) rest with ⟨line, lines, same⟩
  rw [same, readMesh, pythonBlank_brace, if_neg Bool.false_ne_true] at read
  rcases bind_eq_ok_iff.mp read with ⟨json, -, read⟩
  rcases bind_eq_ok_iff.mp read with ⟨next, added, read⟩
  have grown := MeshLog.add_entries added
  have more := readMesh_entries read
  omega

/-! ## Padding records -/

def Ascii (bytes : Bytes) : Prop := ∀ b ∈ bytes, b < 0x80

theorem ascii_append {left right : Bytes} : Ascii (left ++ right) ↔ Ascii left ∧ Ascii right :=
  List.forall_mem_append

theorem ascii_cons {b : UInt8} {bytes : Bytes} : Ascii (b :: bytes) ↔ b < 0x80 ∧ Ascii bytes :=
  List.forall_mem_cons

theorem ascii_nil : Ascii [] := fun _ inside => absurd inside List.not_mem_nil

theorem ascii_hex (bytes : Bytes) : Ascii (utf8 (Sha256.hex bytes)) := by
  intro b inside
  have digit := List.all_eq_true.mp (Sha256.utf8_hex_all bytes) b inside
  simp only [Sha256.isHexByte, Bool.or_eq_true, Bool.and_eq_true, decide_eq_true_eq,
    UInt8.le_iff_toNat_le] at digit
  rw [UInt8.lt_iff_toNat_lt]
  simp only [UInt8.reduceToNat] at digit ⊢
  omega

theorem ascii_escapeByte {b : UInt8} (ascii : b < 0x80) : Ascii (JsonText.escapeByte b) := by
  have digit : ∀ n < 16, JsonText.hexDigit n < 0x80 := by decide
  have small := UInt8.lt_iff_toNat_lt.mp ascii
  have low := digit (b.toNat % 16) (by omega)
  unfold JsonText.escapeByte
  split_ifs with _ _ _ _ _ _ _ control
  all_goals simp only [ascii_cons, ascii_nil, and_true]
  all_goals try decide
  · have high := digit (b.toNat / 16) (by
      have bound := UInt8.lt_iff_toNat_lt.mp control
      simp only [UInt8.reduceToNat] at bound
      omega)
    simp only [high, low]
    decide
  · exact ascii

theorem ascii_writeString {content : Bytes} (ascii : Ascii content) :
    Ascii (JsonText.writeString content) := by
  have inner : Ascii (content.flatMap JsonText.escapeByte) := by
    intro c inside
    rcases List.mem_flatMap.mp inside with ⟨b, member, inside⟩
    exact ascii_escapeByte (ascii b member) c inside
  rw [JsonText.writeString, ascii_cons, ascii_append, ascii_cons]
  exact ⟨by decide, inner, by decide, ascii_nil⟩

/-- Members with ASCII names and ASCII texts are written in ASCII. -/
theorem ascii_writeMembers {members : List (String × Bytes)}
    (ascii : ∀ member ∈ members, Ascii (utf8 member.1) ∧ Ascii member.2) :
    Ascii (JsonText.writeMembers
      (members.map (fun member => (utf8 member.1, Json.string member.2)))) := by
  induction members with
  | nil =>
      rw [List.map_nil, JsonText.writeMembers, ascii_cons]
      exact ⟨by decide, ascii_nil⟩
  | cons member members ih =>
      rw [List.forall_mem_cons] at ascii
      rw [List.map_cons, JsonText.writeMembers, ascii_cons, ascii_append, ascii_cons, ascii_append,
        JsonText.write]
      exact ⟨by decide, ascii_writeString ascii.1.1, by decide, ascii_writeString ascii.1.2,
        ih ascii.2⟩

/-- ASCII text has none of the separators. -/
theorem not_separator_of_ascii {record : Value} (ascii : Ascii record.toText) :
    ∀ c ∈ record.text.toList, c ∉ separators := by
  have outside : ∀ c ∈ separators, ∃ b ∈ String.utf8EncodeChar c, ¬ b < 0x80 := by decide
  intro c inside separator
  rcases outside c separator with ⟨b, member, high⟩
  apply high
  apply ascii b
  rw [← utf8_text, Utf8.utf8_eq_flatMap]
  exact List.mem_flatMap.mpr ⟨c, inside, member⟩

/-- A padding record is ASCII, so Python reads it from one line. -/
theorem readable_paddingRecord (digest nonce envelope key : Bytes) :
    Readable (paddingRecord (Sha256.hex digest) (Sha256.hex nonce) envelope key) where
  converts := rfl
  whole := by
    apply not_separator_of_ascii
    have name : ∀ text ∈ "padding" :: "producer_claim" :: paddingMembers,
        ∀ b ∈ utf8 text, b < 0x80 := by decide
    have rest := @ascii_writeMembers [("record_type", utf8 "padding"),
      ("epistemic_type", utf8 "producer_claim"), ("store_nonce", utf8 (Sha256.hex nonce)),
      ("signature", utf8 (Sha256.hex envelope)), ("key_id", utf8 (Sha256.hex key))] (by
        simp only [List.forall_mem_cons, ascii_hex, and_true]
        exact ⟨⟨name _ (by decide), name _ (by decide)⟩, ⟨name _ (by decide), name _ (by decide)⟩,
          name _ (by decide), name _ (by decide), name _ (by decide),
          fun _ inside => absurd inside List.not_mem_nil⟩)
    have first : Ascii (JsonText.writeString (utf8 "capsule_id")) :=
      ascii_writeString (name _ (by decide))
    rw [Value.toText, paddingRecord, objectOf]
    simp only [List.map_cons, JsonText.write, ascii_cons, ascii_append]
    exact ⟨by decide, first, by decide, ascii_writeString (ascii_hex digest), rest⟩

end RustLedger
end CapsuleEmit
