import CapsuleEmit.Foundation.PythonJson

namespace CapsuleEmit
namespace ChainSegment

open Python (Value Dict)

/-!
# A segment of a checkpoint chain

A segment is a run of the checkpoints of a log, each with a proof that its tree
goes on from the one before it and with the number of its own leaves of each
kind.  It is built from the entries of the log and verified on its own.

The functions over a Merkle mountain range, the signature of a checkpoint and
the stamp of a witness are packages.  A store of nodes is the list of its leaf
hashes.
-/

/-! ## Records -/

/-- A witness's confirmation on a checkpoint. -/
structure WitnessRecord where
  tsUrl : String
  entryHash : String
  receiptB64 : String
  leafIndex : Int
  treeSize : Int
  isStub : Bool
  deriving DecidableEq

structure CheckpointRecord where
  logId : String
  mmrSize : Nat
  root : String
  prevSize : Nat
  prevRoot : String
  keyId : String
  timestamp : String
  signature : String
  witnesses : List WitnessRecord
  deriving DecidableEq

/-- A proof that a tree of a size goes on from one of a smaller size. -/
structure ConsistencyProof where
  v : Int
  kind : String
  sizeA : Int
  sizeB : Int
  oldPeaks : List Value
  witness : List (List Value)
  newPeaks : List Value

/-- The packages; a size that is none of a tree has no number of leaves. -/
structure Cll where
  leafHash : Bytes → Bytes
  nodeCount : Nat → Nat
  leafCount : Nat → Option Nat
  consistencyProof : List Bytes → Nat → Nat → Option ConsistencyProof
  verifyConsistency : Bytes → Nat → Bytes → Nat → ConsistencyProof → Bool
  verifySignature : CheckpointRecord → Bool
  witnessed : CheckpointRecord → WitnessRecord → Option String → Bool
  checkpointOf : Value → Except String CheckpointRecord
  toDict : CheckpointRecord → Value

/-- A checkpoint of the segment, with what it takes to verify it. -/
structure CheckpointLink where
  checkpoint : CheckpointRecord
  consistencyProof : Option ConsistencyProof
  checkpointCose : Option Bytes
  leafCounts : Dict
  adjudication : Option Dict
  leafDigests : Option (List Value)

structure Segment where
  v : Int
  links : List CheckpointLink

/-- A segment that cannot be built, or another exception. -/
inductive SegmentError where
  | refused (why : String)
  | raised (why : String)

/-- What is asked for: the last checkpoints, or those between two sizes. -/
structure Selection where
  fromSize : Option Int
  toSize : Option Int
  last : Option Int

/-! ## Reading entries -/

/-- `container[key]`, when it is a dictionary with the key. -/
def item (key : String) : Value → Option Value
  | .dict members => Dict.get? key members
  | _ => none

def isText (text : String) (value : Option Value) : Bool := value.bind Value.str? = some text

/-- `is_adjudication` -/
def isAdjudication (entry : Dict) : Bool :=
  isText "adjudicates" ((entry.get? "chain").bind (item "relation")) ||
    isText "twin_comparison" ((((entry.get? "model_attestation").bind (item "compute_attestation")).bind
      (item "adjudication")).bind (item "source"))

/-- `_default_classify`, with the text of a kind that is no string. -/
def defaultClassify (text : Value → String) (kindField stampKind : String) (entry : Dict) : String :=
  match (entry.get? kindField).filter Value.truthy with
  | some kind => if isText stampKind (some kind) then "stamp" else (kind.str?).getD (text kind)
  | none => if isAdjudication entry then "adjudication" else "capsule"

/-- `_adjudication_verdict` -/
def adjudicationVerdict (entry : Dict) : Option Value :=
  (((entry.get? "model_attestation").bind (item "compute_attestation")).bind
    (item "adjudication")).bind (item "verdict")

/-- How many verdicts there are of each role. -/
structure RoleCounts where
  corroborated : Nat
  contradictedSelf : Nat
  contradictedOther : Nat
  inconclusive : Nat
  deriving DecidableEq

/-- The role of a verdict: its place among the counts, when it has one. -/
def countVerdict (selfOwnerId : Option String) (counts : RoleCounts) (verdict : String) : RoleCounts :=
  if verdict = "corroborated" then { counts with corroborated := counts.corroborated + 1 }
  else if verdict = "inconclusive" then { counts with inconclusive := counts.inconclusive + 1 }
  else if "contradicted:".toList.isPrefixOf verdict.toList then
    if selfOwnerId = some (String.ofList (verdict.toList.drop "contradicted:".length)) then
      { counts with contradictedSelf := counts.contradictedSelf + 1 }
    else { counts with contradictedOther := counts.contradictedOther + 1 }
  else counts

/-- `_verdict_role_counts` -/
def verdictRoleCounts (selfOwnerId : Option String) :
    List Dict → RoleCounts → Except SegmentError RoleCounts
  | [], counts => .ok counts
  | entry :: rest, counts =>
      match adjudicationVerdict entry with
      | none => verdictRoleCounts selfOwnerId rest counts
      | some .none => verdictRoleCounts selfOwnerId rest counts
      | some (.str verdict) =>
          verdictRoleCounts selfOwnerId rest (countVerdict selfOwnerId counts verdict)
      | some other => .error (.raised ("'" ++ other.typeName ++
          "' object has no attribute 'startswith'"))

def RoleCounts.toDict (counts : RoleCounts) : Dict :=
  [("corroborated", .int counts.corroborated), ("contradicted_self", .int counts.contradictedSelf),
    ("contradicted_other", .int counts.contradictedOther), ("inconclusive", .int counts.inconclusive)]

/-- `leaf_counts[k] = leaf_counts.get(k, 0) + 1` -/
def countKind (counts : List (String × Nat)) (kind : String) : List (String × Nat) :=
  if counts.any (fun count => count.1 = kind) then
    counts.map (fun count => if count.1 = kind then (kind, count.2 + 1) else count)
  else counts ++ [(kind, 1)]

/-- The number of leaves of each kind, in the order the kinds come. -/
def leafCounts (kinds : List String) : List (String × Nat) := kinds.foldl countKind []

/-! ## Building -/

/-- What is asked for, when it is well formed. -/
inductive Range where
  | last (n : Nat)
  | between (fromSize toSize : Nat)

def checkSelection (asked : Selection) : Except SegmentError Range :=
  match asked.last with
  | some n =>
      if asked.fromSize.isSome || asked.toSize.isSome then
        .error (.refused "last is mutually exclusive with from_size/to_size")
      else if n ≤ 0 then .error (.refused ("last must be a positive int, got " ++ toString n))
      else .ok (.last n.toNat)
  | none =>
      match asked.fromSize, asked.toSize with
      | some fromSize, some toSize =>
          if fromSize < 0 then
            .error (.refused ("from_size must be a non-negative int, got " ++ toString fromSize))
          else if toSize < fromSize then
            .error (.refused ("to_size must be an int >= from_size, got " ++ toString toSize))
          else .ok (.between fromSize.toNat toSize.toNat)
      | _, _ =>
          .error (.refused "chain_segment requires either last=N, or both from_size and to_size")

/-- The last checkpoint of a size, as a dictionary of them keeps it. -/
def bySize (checkpoints : List CheckpointRecord) (size : Nat) : Option CheckpointRecord :=
  checkpoints.reverse.find? (fun cp => cp.mmrSize = size)

/-- The checkpoints that are selected. -/
def selected (checkpoints : List CheckpointRecord) : Range →
    Except SegmentError (List CheckpointRecord)
  | .last n => .ok (checkpoints.drop (checkpoints.length - n))
  | .between fromSize toSize =>
      match bySize checkpoints toSize with
      | none =>
          match checkpoints.getLast? with
          | some latest =>
              if latest.mmrSize < toSize then
                .error (.refused ("to_size=" ++ toString toSize ++
                  " is beyond this log's latest checkpoint (mmr_size=" ++
                  toString latest.mmrSize ++ ")"))
              else .error (.refused ("to_size=" ++ toString toSize ++
                " does not match any checkpoint this log has"))
          | none => .error (.raised "list index out of range")
      | some last =>
          let endIdx := checkpoints.findIdx (fun cp => cp = last)
          if fromSize = 0 then .ok (checkpoints.take (endIdx + 1))
          else
            match bySize checkpoints fromSize with
            | none => .error (.refused ("from_size=" ++ toString fromSize ++
                " does not match any checkpoint this log has"))
            | some first =>
                let startIdx := checkpoints.findIdx (fun cp => cp = first)
                if endIdx < startIdx then
                  .error (.refused ("from_size=" ++ toString fromSize ++ " is after to_size=" ++
                    toString toSize))
                else .ok ((checkpoints.take (endIdx + 1)).drop startIdx)

section

variable (cll : Cll)

/-- What the builder is called with, besides the entries and the selection. -/
structure Options where
  classify : Dict → Except String String
  selfOwnerId : Option String
  leafDigests : Bool
  idField : String
  kindField : String
  stampKind : String

def raising {α : Type} (answer : Except String α) : Except SegmentError α :=
  answer.mapError SegmentError.raised

/-- The entries that carry a checkpoint. -/
def stampEntries (options : Options) (entries : List Dict) : List Dict :=
  entries.filter (fun entry => isText options.stampKind (entry.get? options.kindField))

/-- The checkpoint of an entry. -/
def stampOf (entry : Dict) : Except SegmentError CheckpointRecord :=
  match entry.get? "checkpoint" with
  | none => .error (.raised "'checkpoint'")
  | some value => raising (cll.checkpointOf value)

/-- `bytes.fromhex(entry[id_field])` -/
def recordDigest (idField : String) (entry : Dict) : Except SegmentError Bytes :=
  match entry.get? idField with
  | none => .error (.raised ("'" ++ idField ++ "'"))
  | some (.str text) =>
      match Python.fromHex text with
      | none => .error (.raised "non-hexadecimal number found in fromhex() arg")
      | some bytes => .ok bytes
  | some other => .error (.raised ("fromhex() argument must be str, not " ++ other.typeName))

/-- The COSE form of a checkpoint: of the last stamp of its size that has one. -/
def coseOf (stamps : List (CheckpointRecord × Dict)) (size : Nat) :
    Except SegmentError (Option Bytes) :=
  match (stamps.reverse.find? (fun stamp =>
      stamp.1.mmrSize = size && ((stamp.2.get? "checkpoint_cose").any Value.truthy))).bind
        (fun stamp => stamp.2.get? "checkpoint_cose") with
  | none => .ok none
  | some (.str text) =>
      match Python.fromHex text with
      | none => .error (.raised "non-hexadecimal number found in fromhex() arg")
      | some bytes => .ok (some bytes)
  | some other => .error (.raised ("fromhex() argument must be str, not " ++ other.typeName))

/-- `mmr_core.leaf_count` -/
def leafCountOf (size : Nat) : Except SegmentError Nat :=
  match cll.leafCount size with
  | some n => .ok n
  | none => .error (.raised "not a valid MMR size")

/-- `entry[id_field]` -/
def idOf (idField : String) (entry : Dict) : Except SegmentError Value :=
  match entry.get? idField with
  | none => .error (.raised ("'" ++ idField ++ "'"))
  | some value => .ok value

/-- The proof that a checkpoint goes on from the one before it in the segment. -/
def proofOf (leaves : List Bytes) (prev : Option CheckpointRecord) (cp : CheckpointRecord) :
    Except SegmentError (Option ConsistencyProof) :=
  match prev with
  | none => .ok none
  | some prev =>
      match cll.consistencyProof leaves prev.mmrSize cp.mmrSize with
      | none => .error (.raised "no consistency proof")
      | some proof => .ok (some proof)

/-- The role counts of the adjudications among entries of some kinds, if there is one. -/
def rolesOf (options : Options) (kinds : List (String × Dict)) :
    Except SegmentError (Option Dict) :=
  let adjudications := (kinds.filter (fun kind => kind.1 = "adjudication")).map Prod.snd
  if adjudications.isEmpty then .ok none
  else do
    let counts ← verdictRoleCounts options.selfOwnerId adjudications ⟨0, 0, 0, 0⟩
    return some counts.toDict

/-- The ids of entries, when they are asked for. -/
def digestsOf (options : Options) (own : List Dict) : Except SegmentError (Option (List Value)) :=
  if options.leafDigests then (own.mapM (idOf options.idField)).map some else .ok none

/-- One link: the body of the builder's loop. -/
def buildLink (options : Options) (entries : List Dict) (stamps : List (CheckpointRecord × Dict))
    (leaves : List Bytes) (prev : Option CheckpointRecord) (cp : CheckpointRecord) :
    Except SegmentError CheckpointLink := do
  let proof ← proofOf cll leaves prev cp
  let ownLeafStart ← leafCountOf cll cp.prevSize
  let ownLeafEnd ← leafCountOf cll cp.mmrSize
  let ownEntries := (entries.take ownLeafEnd).drop ownLeafStart
  let kinds ← ownEntries.mapM (fun entry => raising (options.classify entry))
  let adjudication ← rolesOf options (kinds.zip ownEntries)
  let cose ← coseOf stamps cp.mmrSize
  let digests ← digestsOf options ownEntries
  return {
    checkpoint := cp
    consistencyProof := proof
    checkpointCose := cose
    leafCounts := (leafCounts kinds).map (fun count => (count.1, .int count.2))
    adjudication := adjudication
    leafDigests := digests }

def buildLinks (options : Options) (entries : List Dict) (stamps : List (CheckpointRecord × Dict))
    (leaves : List Bytes) : Option CheckpointRecord → List CheckpointRecord →
    Except SegmentError (List CheckpointLink)
  | _, [] => .ok []
  | prev, cp :: rest => do
      let link ← buildLink cll options entries stamps leaves prev cp
      let links ← buildLinks options entries stamps leaves (some cp) rest
      return link :: links

/-- `chain_segment` -/
def chainSegment (options : Options) (entries : List Dict) (asked : Selection) :
    Except SegmentError Segment :=
  if entries.isEmpty then .error (.refused "entries: empty log")
  else do
    let range ← checkSelection asked
    let checkpoints ← (stampEntries options entries).mapM (stampOf cll)
    if checkpoints.isEmpty then .error (.refused "no checkpoints recorded for this log yet")
    else do
      let segment ← selected checkpoints range
      match segment.getLast? with
      | none => .error (.raised "list index out of range")
      | some last =>
          let coveredLeaves ← leafCountOf cll last.mmrSize
          let digests ← (entries.take coveredLeaves).mapM (recordDigest options.idField)
          let leaves := digests.map cll.leafHash
          if cll.nodeCount leaves.length ≠ last.mmrSize then
            .error (.refused ("reconstructed MMR size " ++ toString (cll.nodeCount leaves.length) ++
              " does not match checkpoint mmr_size " ++ toString last.mmrSize ++
              " — log may be corrupt or truncated"))
          else do
            let links ← buildLinks cll options entries
              (checkpoints.zip (stampEntries options entries)) leaves none segment
            return ⟨1, links⟩

end

end ChainSegment
end CapsuleEmit
