import CapsuleEmit.ArtifactStore.Wire
import CapsuleEmit.Foundation.Integers
import CapsuleEmit.Foundation.Machine
import CapsuleEmit.RustLedger.Line

namespace CapsuleEmit
namespace Checkpointing

open ArtifactStore (structFields required defaulted)
open RustLedger (hexDecode)

/-!
# Witness receipts beside the checkpoints

A receipt that arrives after its checkpoint was written is one line of a file
of its own.  A write may be cut short at any byte, and the file is never
rewritten: the next append ends the torn line first, and a reader takes each
line that has its newline on its own.

A checkpoint has the witnesses it was written with.  The receipts of the file
that are bound to it are merged into them in file order, one after the other.
-/

/-! ## Records -/

/-- One witness receipt attached to a checkpoint. -/
structure CheckpointWitness where
  tsUrl : String
  entryHash : String
  receiptB64 : String
  leafIndex : Int64
  treeSize : Int64
  isStub : Bool
  deriving DecidableEq

/-- A signed checkpoint. -/
structure CheckpointRecord where
  v : UInt32
  kind : String
  logId : String
  mmrSize : UInt64
  root : String
  prevSize : UInt64
  prevRoot : String
  keyId : String
  timestamp : String
  signature : String
  witnesses : List CheckpointWitness

/-- One witness receipt for the checkpoint at a size with a root. -/
structure WitnessBackfill where
  mmrSize : UInt64
  root : String
  witness : CheckpointWitness
  deriving DecidableEq

/-- The packages: the JSON reader on text in UTF-8, what it and the decoders say of a line
they refuse, and the digest of a checkpoint. -/
structure Packages where
  fromStr : Bytes → Except String Json
  notUtf8 : Bytes → String
  mismatch : Json → String
  digest : CheckpointRecord → String

/-- What is relied on: a document within the limit reads back from its text. -/
structure Packages.Lawful (packages : Packages) : Prop where
  reads : ∀ tree : Json, tree.textual = true → tree.Within depthLimit →
    packages.fromStr (JsonText.write tree) = .ok tree

/-! ## Lines -/

def numberOf (n : Int) : Json := .number (Integers.ofInt n)

def readInt64 : Json → Option Int64
  | .number number => Integers.toInt64? number
  | _ => none

def readUInt64 : Json → Option UInt64
  | .number number => Integers.toUInt64? number
  | _ => none

def readBool : Json → Option Bool
  | .bool value => some value
  | _ => none

@[simp] theorem readInt64_numberOf (n : Int64) : readInt64 (numberOf n.toInt) = some n :=
  Integers.toInt64?_ofInt n

@[simp] theorem readUInt64_numberOf (n : UInt64) : readUInt64 (numberOf n.toNat) = some n :=
  Integers.toUInt64?_ofInt n

/-- The members of a witness; a stub is marked, and nothing else is. -/
def CheckpointWitness.toJson (w : CheckpointWitness) : Json :=
  .object ([(utf8 "ts_url", Json.ofString w.tsUrl), (utf8 "entry_hash", Json.ofString w.entryHash),
    (utf8 "receipt_b64", Json.ofString w.receiptB64),
    (utf8 "leaf_index", numberOf w.leafIndex.toInt),
    (utf8 "tree_size", numberOf w.treeSize.toInt)] ++
    (if w.isStub then [(utf8 "is_stub", .bool true)] else []))

def WitnessBackfill.toJson (b : WitnessBackfill) : Json :=
  .object [(utf8 "mmr_size", numberOf b.mmrSize.toNat), (utf8 "root", Json.ofString b.root),
    (utf8 "witness", b.witness.toJson)]

def witnessFields : List String :=
  ["ts_url", "entry_hash", "receipt_b64", "leaf_index", "tree_size", "is_stub"]

def backfillFields : List String := ["mmr_size", "root", "witness"]

def CheckpointWitness.ofJson (tree : Json) : Option CheckpointWitness :=
  match structFields witnessFields tree with
  | some [tsUrl, entryHash, receiptB64, leafIndex, treeSize, isStub] => do
      let tsUrl ← required Json.asStr tsUrl
      let entryHash ← required Json.asStr entryHash
      let receiptB64 ← required Json.asStr receiptB64
      let leafIndex ← required readInt64 leafIndex
      let treeSize ← required readInt64 treeSize
      let isStub ← defaulted false readBool isStub
      return ⟨tsUrl, entryHash, receiptB64, leafIndex, treeSize, isStub⟩
  | _ => none

def WitnessBackfill.ofJson (tree : Json) : Option WitnessBackfill :=
  match structFields backfillFields tree with
  | some [mmrSize, root, witness] => do
      let mmrSize ← required readUInt64 mmrSize
      let root ← required Json.asStr root
      let witness ← required CheckpointWitness.ofJson witness
      return ⟨mmrSize, root, witness⟩
  | _ => none

/-- `serde_json::to_string` of a backfill. -/
def WitnessBackfill.toText (b : WitnessBackfill) : Bytes := JsonText.write b.toJson

theorem CheckpointWitness.ofJson_toJson (w : CheckpointWitness) :
    CheckpointWitness.ofJson w.toJson = some w := by
  have fields : structFields witnessFields w.toJson =
      some [some (Json.ofString w.tsUrl), some (Json.ofString w.entryHash),
        some (Json.ofString w.receiptB64), some (numberOf w.leafIndex.toInt),
        some (numberOf w.treeSize.toInt), if w.isStub then some (.bool true) else none] := by
    cases stub : w.isStub <;>
      simp [CheckpointWitness.toJson, structFields, witnessFields, stub]
  rw [CheckpointWitness.ofJson, fields]
  rcases w with ⟨tsUrl, entryHash, receiptB64, leafIndex, treeSize, _ | _⟩ <;>
    simp [required, defaulted, readBool]

theorem WitnessBackfill.ofJson_toJson (b : WitnessBackfill) :
    WitnessBackfill.ofJson b.toJson = some b := by
  have fields : structFields backfillFields b.toJson =
      some [some (numberOf b.mmrSize.toNat), some (Json.ofString b.root),
        some b.witness.toJson] := by
    simp [WitnessBackfill.toJson, structFields, backfillFields]
  rw [WitnessBackfill.ofJson, fields]
  simp [required, CheckpointWitness.ofJson_toJson]

theorem textual_ofString (s : String) : (Json.ofString s).textual = true := by
  rw [Json.ofString, Json.textual, utf8?_utf8]
  rfl

theorem WitnessBackfill.textual_toJson (b : WitnessBackfill) : b.toJson.textual = true := by
  have witness : b.witness.toJson.textual = true := by
    rw [CheckpointWitness.toJson, Json.textual, RustLedger.textualMembers_iff]
    cases b.witness.isStub <;> simp [textual_ofString, numberOf, Json.textual]
  rw [WitnessBackfill.toJson, Json.textual, RustLedger.textualMembers_iff]
  simp [textual_ofString, numberOf, Json.textual, witness]

theorem WitnessBackfill.within_toJson (b : WitnessBackfill) : b.toJson.Within depthLimit := by
  have witness : b.witness.toJson.Within 126 := by
    cases stub : b.witness.isStub <;>
      simp [CheckpointWitness.toJson, stub, numberOf, Json.Within]
  simp [WitnessBackfill.toJson, depthLimit, numberOf, Json.Within, witness]

theorem newline_notMem_toText (b : WitnessBackfill) : newline ∉ b.toText :=
  JsonText.newline_notMem_write b.toJson

/-! ## Reading -/

def witnessBackfillFile : String := "witness-backfill.jsonl"

section

variable (packages : Packages)

/-- What one complete line holds, or why it is ignored. -/
def readLine (line : Bytes) : Except String WitnessBackfill :=
  if (utf8? line).isSome then
    (packages.fromStr line).bind (fun tree =>
      (WitnessBackfill.ofJson tree).elim (.error (packages.mismatch tree)) .ok)
  else .error (packages.notUtf8 line)

/-- The backfills of numbered lines, and a message for each line that is ignored. -/
def readLines : Nat → List Bytes → List WitnessBackfill × List String
  | _, [] => ([], [])
  | number, line :: rest =>
      match readLine packages line with
      | .ok backfill =>
          (backfill :: (readLines (number + 1) rest).1, (readLines (number + 1) rest).2)
      | .error why =>
          ((readLines (number + 1) rest).1, ("ignoring line " ++ toString number ++ " of " ++
            witnessBackfillFile ++ ": " ++ why) :: (readLines (number + 1) rest).2)

def tornMessage : String := "ignoring the last line of " ++ witnessBackfillFile ++
  ": it has no newline (a write cut short)"

/-- `read_witness_backfills_noting`: the backfills of a file, absent or not, in file order. -/
def readWitnessBackfillsNoting (file : Option Bytes) : List WitnessBackfill × List String :=
  match file with
  | none => ([], [])
  | some bytes =>
      ((readLines packages 1 (Lines.split newline bytes).1).1,
        (if (Lines.split newline bytes).2.isEmpty then [] else [tornMessage]) ++
          (readLines packages 1 (Lines.split newline bytes).1).2)

/-! ## Appending -/

/-- A call of the writer, with how many of its bytes were written if not all were. -/
structure Append where
  backfill : WitnessBackfill
  torn : Option Nat

/-- What a call writes at the end of the bytes: its line, behind the newline that a torn
last line lacks. -/
def Append.bytes (call : Append) (bytes : Bytes) : Bytes :=
  (if bytes.isEmpty || bytes.getLast? = some newline then [] else [newline]) ++
    (call.backfill.toText ++ [newline])

/-- `append_witness_backfill`: whether the write was completed, and the file after it. -/
def appendWitnessBackfill (file : Option Bytes) (call : Append) : Bool × Option Bytes :=
  match call.torn with
  | none => (true, some (file.getD [] ++ call.bytes (file.getD [])))
  | some written => (false, some (file.getD [] ++ (call.bytes (file.getD [])).take written))

/-! ## Merging -/

/-- `bound_entry_hash`: the entry hash a receipt for a checkpoint carries. -/
def boundEntryHash (cp : CheckpointRecord) : Option String :=
  (hexDecode (packages.digest cp)).map (fun digest => Sha256.hex (Sha256.digest digest))

/-- A receipt in the place of the first one for its URL, or at the end. -/
def place : List CheckpointWitness → CheckpointWitness → List CheckpointWitness
  | [], w => [w]
  | existing :: rest, w =>
      if existing.tsUrl = w.tsUrl then w :: rest else existing :: place rest w

/-- Whether a backfill is recorded for a checkpoint. -/
def WitnessBackfill.isFor (b : WitnessBackfill) (cp : CheckpointRecord) : Bool :=
  b.mmrSize = cp.mmrSize && b.root = cp.root

def unboundMessage (cp : CheckpointRecord) (w : CheckpointWitness) : String :=
  "ignoring the receipt from " ++ w.tsUrl ++ " recorded for checkpoint " ++
    toString cp.mmrSize.toNat ++ ": its entry_hash is not bound to this checkpoint"

/-- One backfill recorded for a checkpoint. -/
def mergeOne (cp : CheckpointRecord) (bound : String)
    (merged : List CheckpointWitness × List String) (b : WitnessBackfill) :
    List CheckpointWitness × List String :=
  if b.witness.entryHash ≠ bound then (merged.1, merged.2 ++ [unboundMessage cp b.witness])
  else (place merged.1 b.witness, merged.2)

/-- `effective_witnesses_noting`: the witnesses of a checkpoint merged with the backfills
bound to it, and a message for each receipt recorded for it but not bound. -/
def effectiveWitnessesNoting (cp : CheckpointRecord) (backfills : List WitnessBackfill) :
    List CheckpointWitness × List String :=
  match boundEntryHash packages cp with
  | none => (cp.witnesses, [])
  | some bound => (backfills.filter (·.isFor cp)).foldl (mergeOne cp bound) (cp.witnesses, [])

end

/-! ## What a run of appends leaves -/

section

variable {packages : Packages}

/-- The line of a backfill is read as that backfill. -/
theorem readLine_toText (lawful : packages.Lawful) (b : WitnessBackfill) :
    readLine packages b.toText = .ok b := by
  have valid : (utf8? b.toText).isSome = true :=
    ((JsonText.readDocument_textual_iff b.textual_toJson).mp
      (JsonText.readDocument_write b.toJson)).1
  rw [readLine, if_pos valid, WitnessBackfill.toText,
    lawful.reads _ b.textual_toJson b.within_toJson]
  simp only [Except.bind, WitnessBackfill.ofJson_toJson, Option.elim_some]

/-- Each complete line counts on its own. -/
theorem readLines_fst (number : Nat) (lines : List Bytes) :
    (readLines packages number lines).1 =
      lines.filterMap (fun line => (readLine packages line).toOption) := by
  induction lines generalizing number with
  | nil => rfl
  | cons line lines ih =>
      rw [readLines, List.filterMap_cons]
      rcases readLine packages line with why | backfill
      · exact ih (number + 1)
      · exact congrArg (backfill :: ·) (ih (number + 1))

/-- The receipts of the complete lines of a file. -/
def receipts (packages : Packages) (bytes : Bytes) : List WitnessBackfill :=
  (Lines.split newline bytes).1.filterMap (fun line => (readLine packages line).toOption)

theorem read_fst (file : Option Bytes) :
    (readWitnessBackfillsNoting packages file).1 = receipts packages (file.getD []) := by
  cases file with
  | none => rfl
  | some bytes => exact readLines_fst 1 _

/-- Bytes behind a file hide none of its receipts. -/
theorem receipts_sublist (bytes more : Bytes) :
    (receipts packages bytes).Sublist (receipts packages (bytes ++ more)) :=
  ((Lines.split_prefix newline bytes more).sublist).filterMap _

/-- A completed append adds a line of its own. -/
theorem receipts_append (lawful : packages.Lawful) (bytes : Bytes) (call : Append) :
    (receipts packages bytes ++ [call.backfill]).Sublist
      (receipts packages (bytes ++ call.bytes bytes)) := by
  have clean : Lines.Clean newline call.backfill.toText := newline_notMem_toText call.backfill
  have ended : ∀ front : Bytes, (Lines.split newline front).2 = [] →
      (receipts packages front ++ [call.backfill]) =
        receipts packages (front ++ (call.backfill.toText ++ [newline])) := by
    intro front whole
    have line : Lines.split newline (call.backfill.toText ++ [newline]) =
        ([call.backfill.toText], []) := by
      have := Lines.split_clean_append clean []
      simpa [Lines.split] using this
    rw [receipts, receipts, Lines.split_append, whole, List.nil_append, line,
      List.filterMap_append, List.filterMap_cons, readLine_toText lawful]
    rfl
  rw [Append.bytes]
  split
  · next whole =>
      have empty := (Lines.split_tail_eq_nil_iff newline bytes).mpr (by simpa using whole)
      rw [List.nil_append, ← ended bytes empty]
  · have empty := (Lines.split_tail_eq_nil_iff newline (bytes ++ [newline])).mpr (by simp)
    rw [← List.append_assoc, ← ended (bytes ++ [newline]) empty]
    exact (receipts_sublist bytes [newline]).append (List.Sublist.refl _)

/-- The backfills of the calls that were completed. -/
def completed (calls : List Append) : List WitnessBackfill :=
  (calls.filter (fun call => call.torn.isNone)).map Append.backfill

/-- After any calls the receipts of the file are still read, and those of the completed
calls after them. -/
theorem receipts_run (lawful : packages.Lawful) (file : Option Bytes) (calls : List Append) :
    (receipts packages (file.getD []) ++ completed calls).Sublist
      (receipts packages ((Machine.after appendWitnessBackfill file calls).getD [])) := by
  induction calls using List.reverseRecOn with
  | nil => rw [completed, List.filter_nil, List.map_nil, List.append_nil]; exact .refl _
  | append_singleton calls call ih =>
      rw [Machine.after_concat]
      generalize Machine.after appendWitnessBackfill file calls = reached at ih
      cases ending : call.torn with
      | none =>
          have last : completed (calls ++ [call]) = completed calls ++ [call.backfill] := by
            simp [completed, ending]
          rw [last, ← List.append_assoc]
          simp only [appendWitnessBackfill, ending, Option.getD_some]
          exact (ih.append (.refl _)).trans (receipts_append lawful (reached.getD []) call)
      | some written =>
          have same : completed (calls ++ [call]) = completed calls := by
            simp [completed, ending]
          rw [same]
          simp only [appendWitnessBackfill, ending, Option.getD_some]
          exact ih.trans (receipts_sublist _ _)

/-- Each complete line of a file is read or ignored with a message. -/
theorem length_readLines (number : Nat) (lines : List Bytes) :
    (readLines packages number lines).1.length + (readLines packages number lines).2.length =
      lines.length := by
  induction lines generalizing number with
  | nil => rfl
  | cons line lines ih =>
      rw [readLines]
      have rest := ih (number + 1)
      rcases readLine packages line with why | backfill
      · simp only [List.length_cons]
        omega
      · simp only [List.length_cons]
        omega

/-! ## What merging keeps -/

theorem mem_place (ws : List CheckpointWitness) (w : CheckpointWitness) : w ∈ place ws w := by
  induction ws with
  | nil => exact List.mem_singleton_self w
  | cons existing ws ih =>
      rw [place]
      split
      · exact List.mem_cons_self
      · exact List.mem_cons_of_mem _ ih

/-- A receipt that is not for the same URL stays. -/
theorem mem_place_of_ne {ws : List CheckpointWitness} {w other : CheckpointWitness}
    (inside : other ∈ ws) (different : other.tsUrl ≠ w.tsUrl) : other ∈ place ws w := by
  induction ws with
  | nil => cases inside
  | cons existing ws ih =>
      rw [place]
      split
      · next same =>
          rcases List.mem_cons.mp inside with rfl | behind
          · exact absurd same different
          · exact List.mem_cons_of_mem _ behind
      · rcases List.mem_cons.mp inside with rfl | behind
        · exact List.mem_cons_self
        · exact List.mem_cons_of_mem _ (ih behind)

theorem eq_or_mem_of_mem_place {ws : List CheckpointWitness} {w other : CheckpointWitness}
    (inside : other ∈ place ws w) : other = w ∨ other ∈ ws := by
  induction ws with
  | nil => exact Or.inl (List.mem_singleton.mp inside)
  | cons existing ws ih =>
      rw [place] at inside
      split at inside
      · rcases List.mem_cons.mp inside with same | behind
        · exact Or.inl same
        · exact Or.inr (List.mem_cons_of_mem _ behind)
      · rcases List.mem_cons.mp inside with rfl | behind
        · exact Or.inr List.mem_cons_self
        · exact (ih behind).imp id (List.mem_cons_of_mem _)

/-- The URLs stay as they are, with a new one at the end. -/
theorem urls_place (ws : List CheckpointWitness) (w : CheckpointWitness) :
    (place ws w).map CheckpointWitness.tsUrl =
      if w.tsUrl ∈ ws.map CheckpointWitness.tsUrl then ws.map CheckpointWitness.tsUrl
      else ws.map CheckpointWitness.tsUrl ++ [w.tsUrl] := by
  induction ws with
  | nil => rfl
  | cons existing ws ih =>
      rw [place, List.map_cons]
      by_cases same : existing.tsUrl = w.tsUrl
      · rw [if_pos same, if_pos (by rw [same]; exact List.mem_cons_self), List.map_cons, same]
      · rw [if_neg same, List.map_cons, ih]
        have member : (w.tsUrl ∈ existing.tsUrl :: ws.map CheckpointWitness.tsUrl) ↔
            w.tsUrl ∈ ws.map CheckpointWitness.tsUrl := by
          rw [List.mem_cons, or_iff_right (Ne.symm same)]
        by_cases inside : w.tsUrl ∈ ws.map CheckpointWitness.tsUrl
        · rw [if_pos inside, if_pos (member.mpr inside)]
        · rw [if_neg inside, if_neg (fun there => inside (member.mp there)), List.cons_append]

theorem nodup_urls_place_iff (ws : List CheckpointWitness) (w : CheckpointWitness) :
    ((place ws w).map CheckpointWitness.tsUrl).Nodup ↔
      (ws.map CheckpointWitness.tsUrl).Nodup := by
  rw [urls_place]
  split
  · rfl
  · next fresh =>
      rw [List.nodup_append]
      simp only [List.nodup_singleton, List.mem_singleton, true_and, and_iff_left_iff_imp]
      rintro - url inside _ rfl
      exact fun same => fresh (same ▸ inside)

theorem nodup_urls_foldl_iff (receipts ws : List CheckpointWitness) :
    ((receipts.foldl place ws).map CheckpointWitness.tsUrl).Nodup ↔
      (ws.map CheckpointWitness.tsUrl).Nodup := by
  induction receipts generalizing ws with
  | nil => rfl
  | cons w receipts ih => rw [List.foldl_cons, ih, nodup_urls_place_iff]

/-- Where there is a receipt with a property for a URL, one stays there as long as every
receipt placed has it. -/
theorem kept_foldl {p : CheckpointWitness → Prop} {receipts : List CheckpointWitness}
    (all : ∀ w ∈ receipts, p w) {url : String} (ws : List CheckpointWitness)
    (given : ∃ w ∈ ws ++ receipts, w.tsUrl = url ∧ p w) :
    ∃ w ∈ receipts.foldl place ws, w.tsUrl = url ∧ p w := by
  induction receipts generalizing ws with
  | nil => simpa using given
  | cons next receipts ih =>
      rw [List.foldl_cons]
      apply ih (fun w inside => all w (List.mem_cons_of_mem _ inside))
      rcases given with ⟨w, inside, rfl, holds⟩
      by_cases same : w.tsUrl = next.tsUrl
      · exact ⟨next, List.mem_append_left _ (mem_place ws next), same.symm,
          all next List.mem_cons_self⟩
      · refine ⟨w, ?_, rfl, holds⟩
        rcases List.mem_append.mp inside with own | placed
        · exact List.mem_append_left _ (mem_place_of_ne own same)
        · rcases List.mem_cons.mp placed with rfl | later
          · exact absurd rfl same
          · exact List.mem_append_right _ later

/-- Merging adds nothing but the receipts that are placed. -/
theorem mem_of_mem_foldl {receipts ws : List CheckpointWitness} {w : CheckpointWitness}
    (inside : w ∈ receipts.foldl place ws) : w ∈ ws ∨ w ∈ receipts := by
  induction receipts generalizing ws with
  | nil => exact Or.inl inside
  | cons next receipts ih =>
      rcases ih inside with placed | later
      · rcases eq_or_mem_of_mem_place placed with rfl | own
        · exact Or.inr List.mem_cons_self
        · exact Or.inl own
      · exact Or.inr (List.mem_cons_of_mem _ later)

/-- A receipt bound to a checkpoint: its entry hash is the one receipts for it carry. -/
def IsBound (packages : Packages) (cp : CheckpointRecord) (w : CheckpointWitness) : Prop :=
  boundEntryHash packages cp = some w.entryHash

instance (cp : CheckpointRecord) (w : CheckpointWitness) : Decidable (IsBound packages cp w) :=
  inferInstanceAs (Decidable (_ = _))

/-- The receipts recorded for a checkpoint and bound to it, in file order. -/
def boundReceipts (packages : Packages) (cp : CheckpointRecord)
    (backfills : List WitnessBackfill) : List CheckpointWitness :=
  ((backfills.filter (·.isFor cp)).map WitnessBackfill.witness).filter
    (fun w => IsBound packages cp w)

/-- The witnesses of a checkpoint are its own, with each bound receipt in its place. -/
theorem effective_fst (cp : CheckpointRecord) (backfills : List WitnessBackfill) :
    (effectiveWitnessesNoting packages cp backfills).1 =
      (boundReceipts packages cp backfills).foldl place cp.witnesses := by
  rw [effectiveWitnessesNoting, boundReceipts]
  cases hash : boundEntryHash packages cp with
  | none => simp [IsBound, hash]
  | some bound =>
      have fold : ∀ (recorded : List WitnessBackfill) (ws : List CheckpointWitness)
          (messages : List String), (recorded.foldl (mergeOne cp bound) (ws, messages)).1 =
            ((recorded.map WitnessBackfill.witness).filter
              (fun w => IsBound packages cp w)).foldl place ws := by
        intro recorded
        induction recorded with
        | nil => exact fun _ _ => rfl
        | cons b recorded ih =>
            intro ws messages
            rw [List.foldl_cons, List.map_cons]
            by_cases same : b.witness.entryHash = bound
            · rw [mergeOne, if_neg (not_not.mpr same), ih, List.filter_cons_of_pos
                (by simp [IsBound, hash, same]), List.foldl_cons]
            · rw [mergeOne, if_pos same, ih, List.filter_cons_of_neg
                (by simpa [IsBound, hash] using Ne.symm same)]
      exact fold _ _ _

/-! ## Every file and every checkpoint -/

/-- The backfills that are read after a run of appends. -/
def found (packages : Packages) (file : Option Bytes) (calls : List Append) :
    List WitnessBackfill :=
  (readWitnessBackfillsNoting packages (Machine.after appendWitnessBackfill file calls)).1

/-- The witnesses of a checkpoint merged with them. -/
def merged (packages : Packages) (file : Option Bytes) (calls : List Append)
    (cp : CheckpointRecord) : List CheckpointWitness :=
  (effectiveWitnessesNoting packages cp (found packages file calls)).1

/-- What a reader of receipts relies on, for a file, the appends made to it and a checkpoint:
the receipts that were there and those of the completed appends are read, the merged
witnesses have one entry for each URL, each of them is the checkpoint's own or was read and
is bound to it, and where there is a bound receipt for a URL the entry for it is bound. -/
structure Robust (packages : Packages) (file : Option Bytes) (calls : List Append)
    (cp : CheckpointRecord) : Prop where
  returned : ((readWitnessBackfillsNoting packages file).1 ++ completed calls).Sublist
    (found packages file calls)
  single : ((merged packages file calls cp).map CheckpointWitness.tsUrl).Nodup
  given : ∀ w ∈ merged packages file calls cp, w ∈ cp.witnesses ∨ IsBound packages cp w ∧
    ∃ b ∈ found packages file calls, b.isFor cp = true ∧ b.witness = w
  kept : ∀ w, (w ∈ cp.witnesses ∨
      ∃ b ∈ found packages file calls, b.isFor cp = true ∧ b.witness = w) →
    IsBound packages cp w →
    ∃ w' ∈ merged packages file calls cp, w'.tsUrl = w.tsUrl ∧ IsBound packages cp w'

theorem mem_boundReceipts {cp : CheckpointRecord} {backfills : List WitnessBackfill}
    {w : CheckpointWitness} : w ∈ boundReceipts packages cp backfills ↔
      IsBound packages cp w ∧ ∃ b ∈ backfills, b.isFor cp = true ∧ b.witness = w := by
  rw [boundReceipts, List.mem_filter, decide_eq_true_eq, and_comm, List.mem_map]
  simp only [List.mem_filter, and_assoc]

/-- Receipts are read and merged as they should be, whatever the file holds and wherever
appends were torn, exactly for the checkpoints whose own witnesses name no URL twice. -/
theorem backfills_robust_iff (lawful : packages.Lawful) (file : Option Bytes)
    (calls : List Append) (cp : CheckpointRecord) :
    Robust packages file calls cp ↔ (cp.witnesses.map CheckpointWitness.tsUrl).Nodup := by
  have placed : merged packages file calls cp =
      (boundReceipts packages cp (found packages file calls)).foldl place cp.witnesses :=
    effective_fst cp _
  constructor
  · intro robust
    have single := robust.single
    rw [placed] at single
    exact (nodup_urls_foldl_iff _ _).mp single
  · intro distinct
    constructor
    case returned =>
      have run := receipts_run lawful file calls
      rwa [← read_fst, ← read_fst] at run
    case single =>
      rw [placed]
      exact (nodup_urls_foldl_iff _ _).mpr distinct
    case given =>
      rw [placed]
      exact fun w inside => (mem_of_mem_foldl inside).imp id mem_boundReceipts.mp
    case kept =>
      intro w given bound
      rw [placed]
      apply kept_foldl (fun other inside => (mem_boundReceipts.mp inside).1)
      refine ⟨w, List.mem_append.mpr (given.imp id (fun read => ?_)), rfl, bound⟩
      exact mem_boundReceipts.mpr ⟨bound, read⟩

end

/-! ### A log -/

/-- The canonical text a checkpoint is signed over. -/
def signingBody (cp : CheckpointRecord) : Json :=
  .object [(utf8 "key_id", Json.ofString cp.keyId), (utf8 "kind", Json.ofString cp.kind),
    (utf8 "log_id", Json.ofString cp.logId), (utf8 "mmr_size", numberOf cp.mmrSize.toNat),
    (utf8 "prev_root", Json.ofString cp.prevRoot),
    (utf8 "prev_size", numberOf cp.prevSize.toNat), (utf8 "root", Json.ofString cp.root),
    (utf8 "timestamp", Json.ofString cp.timestamp), (utf8 "v", numberOf cp.v.toNat)]

def samplePackages : Packages where
  fromStr line := (JsonText.readDocument line).elim (.error "expected value") .ok
  notUtf8 _ := "invalid utf-8"
  mismatch _ := "missing field"
  digest cp := Sha256.hex (Sha256.digest (JsonText.write (signingBody cp)))

theorem samplePackages_lawful : samplePackages.Lawful where
  reads := fun tree _ _ => by
    simp only [samplePackages, JsonText.readDocument_write, Option.elim_some]

def witnessAt (url : String) : CheckpointWitness where
  tsUrl := url
  entryHash := "539e71e6fcd580f48ad4c53f4283998802565b6d9f6aa5c1517bb15e2dcf90d0"
  receiptB64 := "c3R1Yg=="
  leafIndex := 0
  treeSize := 1
  isStub := false

/-- A checkpoint over two records. -/
def checkpointWith (witnesses : List CheckpointWitness) : CheckpointRecord where
  v := 1
  kind := "mmr_checkpoint"
  logId := "asg-cll-conformance-log"
  mmrSize := 3
  root := "f7b19d3f831d2cddfe91865465a8beb649e4bf16c3aa2fde7378e7ee2e215694"
  prevSize := 0
  prevRoot := ""
  keyId := "ea4a6c63e29c520abef5507b132ec5f9954776aebebe7b92421eea691446d22c"
  timestamp := "2026-01-01T00:00:00Z"
  signature := "d87ebe1073b2651d586b6e6f7e86cb3ec9f3fc156502f77447f7e6dc2aa663ce" ++
    "167bca99105ebcc11eb155398cec715667defa809cdeb8c4bdfc84636cda9a03"
  witnesses := witnesses

def backfillAt (url : String) : WitnessBackfill where
  mmrSize := 3
  root := "f7b19d3f831d2cddfe91865465a8beb649e4bf16c3aa2fde7378e7ee2e215694"
  witness := witnessAt url

def firstUrl : String := "https://a.example"

def secondUrl : String := "https://b.example"

/-- An append that is cut short before its newline, and one that is completed after it. -/
def sampleCalls : List Append := [⟨backfillAt secondUrl, some 250⟩, ⟨backfillAt firstUrl, none⟩]

theorem backfills_robust_after_torn :
    Robust samplePackages none sampleCalls (checkpointWith [witnessAt firstUrl]) :=
  (backfills_robust_iff samplePackages_lawful none sampleCalls
    (checkpointWith [witnessAt firstUrl])).mpr (List.nodup_singleton _)

/-- A witness that is configured twice is recorded twice, and stays so. -/
theorem backfills_not_robust :
    ¬Robust samplePackages none [] (checkpointWith [witnessAt firstUrl, witnessAt firstUrl]) := by
  intro robust
  have single := robust.single
  rw [merged, effective_fst] at single
  have own := (nodup_urls_foldl_iff _ _).mp single
  exact (List.nodup_cons.mp own).1 (List.mem_singleton_self _)

end Checkpointing
end CapsuleEmit
