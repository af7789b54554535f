import CapsuleEmit.ChainSegment.Build

namespace CapsuleEmit
namespace ChainSegment

open Python (Value Dict)

/-!
# A built segment verifies

The verifier walks the links up to the first that is broken.  Over a log whose
checkpoints are one chain, whatever segment is built is accepted as a whole, it
has the checkpoints that were asked for, and its counts add up to the leaves
between the start of its first checkpoint and its last.
-/

/-! ## Verifying -/

/-- What verifying a segment gives. -/
structure VerifyResult where
  ok : Bool
  errors : List String
  continuity : String
  historyDepth : Nat
  witnessed : String

section

variable (cll : Cll)

def broken (size : Nat) (why : String) : String :=
  "broken at mmr_size=" ++ toString size ++ ": " ++ why

/-- What is wrong with a link behind a checkpoint of the segment; a root that is no hexadecimal
text raises. -/
def verifyLink (prev : Option CheckpointRecord) (link : CheckpointLink) :
    Except String (Option String) :=
  let cp := link.checkpoint
  if cll.verifySignature cp then
    match prev with
    | none => .ok none
    | some prev =>
        if cp.prevSize ≠ prev.mmrSize ∨ cp.prevRoot ≠ prev.root then
          .ok (some (broken cp.mmrSize ("does not chain from the prior checkpoint " ++
            "in this segment (mmr_size=" ++ toString prev.mmrSize ++ ")")))
        else
          match link.consistencyProof with
          | none => .ok (some (broken cp.mmrSize "missing consistency proof for a non-first link"))
          | some proof =>
              match Python.fromHex prev.root, Python.fromHex cp.root with
              | some rootA, some rootB =>
                  if cll.verifyConsistency rootA prev.mmrSize rootB cp.mmrSize proof then .ok none
                  else .ok (some (broken cp.mmrSize ("consistency proof does not bridge " ++
                    toString prev.mmrSize ++ " -> " ++ toString cp.mmrSize)))
              | _, _ => .error "non-hexadecimal number found in fromhex() arg"
  else .ok (some (broken cp.mmrSize "checkpoint signature does not verify"))

/-- A witness's stamp on a checkpoint verifies, against the anchor of its server. -/
def isStamped (trustAnchor : String → Option String) (cp : CheckpointRecord) : Bool :=
  cp.witnesses.any (fun witness => cll.witnessed cp witness (trustAnchor witness.tsUrl))

/-- How far the links verify: what is wrong with the first broken one, and how many before it
there are and are witnessed. -/
def verifyLinks (trustAnchor : String → Option String) :
    Option CheckpointRecord → List CheckpointLink → Nat → Nat →
    Except String (Option String × Nat × Nat)
  | _, [], depth, witnessed => .ok (none, depth, witnessed)
  | prev, link :: rest, depth, witnessed =>
      match verifyLink cll prev link with
      | .error why => .error why
      | .ok (some why) => .ok (some why, depth, witnessed)
      | .ok none =>
          verifyLinks trustAnchor (some link.checkpoint) rest (depth + 1)
            (if isStamped cll trustAnchor link.checkpoint then witnessed + 1 else witnessed)

/-- `verify_chain_segment` -/
def verifyChainSegment (trustAnchor : String → Option String) (segment : Segment) :
    Except String VerifyResult :=
  if segment.links.isEmpty then
    .ok ⟨false, ["empty segment -- nothing to verify"], "no checkpoints", 0, "0/0"⟩
  else
    match verifyLinks cll trustAnchor none segment.links 0 0 with
    | .error why => .error why
    | .ok (wrong, depth, witnessed) =>
        .ok ⟨wrong.isNone, wrong.toList, wrong.getD "unbroken", depth,
          toString witnessed ++ "/" ++ toString segment.links.length⟩

end

/-! ## Logs whose checkpoints are one chain -/

/-- What is relied on of the packages, with the root over some leaves: a proof that is made
between two trees of a log verifies between their roots. -/
structure Cll.Lawful (cll : Cll) (rootOf : List Bytes → String) : Prop where
  leaves_nodes : ∀ n, cll.leafCount (cll.nodeCount n) = some n
  mono : ∀ m n, m ≤ n → cll.nodeCount m ≤ cll.nodeCount n
  roots : ∀ leaves, ∃ bytes, Python.fromHex (rootOf leaves) = some bytes
  consistent : ∀ leaves m n proof a b, 0 < m → m ≤ n → n ≤ leaves.length →
    cll.consistencyProof leaves (cll.nodeCount m) (cll.nodeCount n) = some proof →
    Python.fromHex (rootOf (leaves.take m)) = some a →
    Python.fromHex (rootOf (leaves.take n)) = some b →
    cll.verifyConsistency a (cll.nodeCount m) b (cll.nodeCount n) proof = true

/-- A checkpoint follows another when it names its size and root and is larger. -/
def Follows (older newer : CheckpointRecord) : Prop :=
  newer.prevSize = older.mmrSize ∧ newer.prevRoot = older.root ∧ older.mmrSize < newer.mmrSize

/-- A checkpoint is over a number of the first leaves, not none, and is signed. -/
def Covers (cll : Cll) (rootOf : List Bytes → String) (leaves : List Bytes)
    (cp : CheckpointRecord) : Prop :=
  cll.verifySignature cp = true ∧ ∃ n, 0 < n ∧ n ≤ leaves.length ∧
    cp.mmrSize = cll.nodeCount n ∧ cp.root = rootOf (leaves.take n)

/-- The log: its records, the checkpoints of its stamps, and that they are one chain from the
first record on. -/
structure History (cll : Cll) (rootOf : List Bytes → String) (options : Options)
    (entries : List Dict) (digests : List Bytes) (checkpoints : List CheckpointRecord) : Prop where
  records : entries.mapM (recordDigest options.idField) = .ok digests
  stamped : (stampEntries options entries).mapM (stampOf cll) = .ok checkpoints
  first : ∀ cp ∈ checkpoints.head?, cp.prevSize = cll.nodeCount 0
  chained : checkpoints.IsChain Follows
  covers : ∀ cp ∈ checkpoints, Covers cll rootOf (digests.map cll.leafHash) cp

section

variable {cll : Cll} {rootOf : List Bytes → String} {options : Options} {entries : List Dict}

/-! ## Counting -/

/-- The number that counts have for a kind. -/
def countOf (kind : String) (counts : List (String × Nat)) : Nat :=
  ((counts.find? (fun count => count.1 = kind)).map Prod.snd).getD 0

/-- The number that a link gives for a kind. -/
def kindCount (kind : String) (counts : Dict) : Int :=
  match counts.get? kind with
  | some (.int n) => n
  | _ => 0

theorem countOf_cons (kind : String) (count : String × Nat) (counts : List (String × Nat)) :
    countOf kind (count :: counts) = if count.1 = kind then count.2 else countOf kind counts := by
  by_cases here : count.1 = kind <;> simp [countOf, here]

theorem countOf_append_new (kind : String) (counts : List (String × Nat)) :
    (counts.any (fun count => count.1 = kind)) = false →
    ∀ other, countOf other (counts ++ [(kind, 1)]) =
      countOf other counts + if other = kind then 1 else 0 := by
  intro new other
  induction counts with
  | nil =>
      by_cases same : other = kind
      · simp [countOf, same]
      · simp [countOf, same, Ne.symm same]
  | cons count counts ih =>
      rw [List.any_cons, Bool.or_eq_false_iff, decide_eq_false_iff_not] at new
      rw [List.cons_append, countOf_cons, countOf_cons, ih new.2]
      by_cases here : count.1 = other
      · rw [if_pos here, if_pos here, if_neg (fun same => new.1 (here.trans same)), Nat.add_zero]
      · rw [if_neg here, if_neg here]

theorem countOf_map_known (kind : String) (counts : List (String × Nat)) :
    (counts.any (fun count => count.1 = kind)) = true →
    ∀ other, countOf other (counts.map (fun count =>
        if count.1 = kind then (kind, count.2 + 1) else count)) =
      countOf other counts + if other = kind then 1 else 0 := by
  intro known other
  induction counts with
  | nil => cases known
  | cons count counts ih =>
      rw [List.map_cons, countOf_cons, countOf_cons]
      by_cases counted : count.1 = kind
      · rw [if_pos counted]
        by_cases same : other = kind
        · rw [if_pos same.symm, if_pos (counted.trans same.symm), if_pos same]
        · rw [if_neg (Ne.symm same), if_neg (fun here => same (here.symm.trans counted)),
            if_neg same, Nat.add_zero]
          by_cases later : (counts.any (fun count => count.1 = kind)) = true
          · rw [ih later, if_neg same, Nat.add_zero]
          · rw [List.map_congr_left (g := id) ?_, List.map_id]
            intro other' inside
            rw [Bool.not_eq_true, List.any_eq_false] at later
            exact if_neg (by simpa using later other' inside)
      · rw [if_neg counted]
        rw [List.any_cons, decide_eq_false counted, Bool.false_or] at known
        by_cases here : count.1 = other
        · rw [if_pos here, if_pos here, if_neg (fun same => counted (here.trans same)), Nat.add_zero]
        · rw [if_neg here, if_neg here, ih known]

theorem countOf_countKind (counts : List (String × Nat)) (kind other : String) :
    countOf other (countKind counts kind) = countOf other counts + if other = kind then 1 else 0 := by
  rw [countKind]
  split
  · next known => exact countOf_map_known kind counts known other
  · next new => exact countOf_append_new kind counts ((Bool.not_eq_true _).mp new) other

/-- The counts of some kinds are how often each of them is there. -/
theorem countOf_leafCounts (kinds : List String) (kind : String) :
    countOf kind (leafCounts kinds) = kinds.count kind := by
  have general : ∀ counts, countOf kind (kinds.foldl countKind counts) =
      countOf kind counts + kinds.count kind := by
    induction kinds with
    | nil => exact fun _ => rfl
    | cons first kinds ih =>
        intro counts
        rw [List.foldl_cons, ih, countOf_countKind, List.count_cons]
        by_cases same : kind = first
        · rw [if_pos same, if_pos (by rw [same]; exact beq_self_eq_true first)]
          omega
        · rw [if_neg same, if_neg (by simpa using Ne.symm same)]
          omega
  exact (general []).trans (Nat.zero_add _)

theorem kindCount_leafCounts (kinds : List String) (kind : String) :
    kindCount kind ((leafCounts kinds).map (fun count => (count.1, .int count.2))) =
      (kinds.count kind : Int) := by
  rw [← countOf_leafCounts, kindCount, countOf, Dict.get?, Value.lookup, List.find?_map]
  cases found : (leafCounts kinds).find? (fun count => count.1 = kind) with
  | none => simp only [Function.comp_def, found]; rfl
  | some count => simp only [Function.comp_def, found]; rfl

/-! ## What a link is built of -/

/-- An entry is of a kind. -/
def isKind (options : Options) (kind : String) (entry : Dict) : Bool :=
  match options.classify entry with
  | .ok found => found = kind
  | .error _ => false

/-- The leaves from one number on up to another. -/
def ownEntries (entries : List Dict) (start stop : Nat) : List Dict :=
  (entries.take stop).drop start

/-- What a built link holds: the proof from the checkpoint before it, and the counts of its own
leaves. -/
structure Built (cll : Cll) (options : Options) (entries : List Dict) (leaves : List Bytes)
    (prev : Option CheckpointRecord) (cp : CheckpointRecord) (link : CheckpointLink) : Prop where
  checkpoint : link.checkpoint = cp
  proof : proofOf cll leaves prev cp = .ok link.consistencyProof
  counted : ∃ start stop, cll.leafCount cp.prevSize = some start ∧
    cll.leafCount cp.mmrSize = some stop ∧
    ∀ kind, kindCount kind link.leafCounts =
      ((ownEntries entries start stop).countP (isKind options kind) : Int)

theorem leafCountOf_eq_ok {size n : Nat} (counted : leafCountOf cll size = .ok n) :
    cll.leafCount size = some n := by
  rw [leafCountOf] at counted
  split at counted
  · next known =>
      cases counted
      exact known
  · cases counted

/-- The kinds of some entries, counted. -/
theorem count_kinds {own : List Dict} {kinds : List String}
    (classified : own.mapM (fun entry => raising (options.classify entry)) = .ok kinds)
    (kind : String) : kinds.count kind = own.countP (isKind options kind) := by
  induction own generalizing kinds with
  | nil =>
      cases classified
      rfl
  | cons entry own ih =>
      rw [List.mapM_cons] at classified
      rcases bind_eq_ok_iff.mp classified with ⟨first, known, classified⟩
      rcases bind_eq_ok_iff.mp classified with ⟨rest, later, same⟩
      cases same
      cases answer : options.classify entry with
      | error why =>
          rw [answer] at known
          cases known
      | ok found =>
          rw [answer] at known
          cases known
          have isIt : isKind options kind entry = (first == kind) := by
            rw [isKind, answer]
            rfl
          rw [List.count_cons, List.countP_cons, ih later, isIt]

theorem buildLink_eq_ok {stamps : List (CheckpointRecord × Dict)} {leaves : List Bytes}
    {prev : Option CheckpointRecord} {cp : CheckpointRecord} {link : CheckpointLink}
    (built : buildLink cll options entries stamps leaves prev cp = .ok link) :
    Built cll options entries leaves prev cp link := by
  rcases bind_eq_ok_iff.mp built with ⟨proof, proved, built⟩
  rcases bind_eq_ok_iff.mp built with ⟨start, from', built⟩
  rcases bind_eq_ok_iff.mp built with ⟨stop, upTo, built⟩
  rcases bind_eq_ok_iff.mp built with ⟨kinds, classified, built⟩
  rcases bind_eq_ok_iff.mp built with ⟨roles, -, built⟩
  rcases bind_eq_ok_iff.mp built with ⟨cose, -, built⟩
  rcases bind_eq_ok_iff.mp built with ⟨digests, -, built⟩
  cases built
  refine ⟨rfl, proved, start, stop, leafCountOf_eq_ok from', leafCountOf_eq_ok upTo, fun kind => ?_⟩
  rw [kindCount_leafCounts, count_kinds classified]
  rfl

/-- Links built one behind another. -/
inductive Chain (cll : Cll) (options : Options) (entries : List Dict) (leaves : List Bytes) :
    Option CheckpointRecord → List CheckpointRecord → List CheckpointLink → Prop where
  | nil (prev : Option CheckpointRecord) : Chain cll options entries leaves prev [] []
  | cons {prev : Option CheckpointRecord} {cp : CheckpointRecord} {link : CheckpointLink}
      {checkpoints : List CheckpointRecord} {links : List CheckpointLink} :
      Built cll options entries leaves prev cp link →
      Chain cll options entries leaves (some cp) checkpoints links →
      Chain cll options entries leaves prev (cp :: checkpoints) (link :: links)

theorem buildLinks_eq_ok {stamps : List (CheckpointRecord × Dict)} {leaves : List Bytes}
    {prev : Option CheckpointRecord} {checkpoints : List CheckpointRecord}
    {links : List CheckpointLink}
    (built : buildLinks cll options entries stamps leaves prev checkpoints = .ok links) :
    Chain cll options entries leaves prev checkpoints links := by
  induction checkpoints generalizing prev links with
  | nil =>
      cases built
      exact Chain.nil prev
  | cons cp checkpoints ih =>
      rcases bind_eq_ok_iff.mp built with ⟨link, here, built⟩
      rcases bind_eq_ok_iff.mp built with ⟨rest, later, same⟩
      cases same
      exact Chain.cons (buildLink_eq_ok here) (ih later)

theorem Chain.checkpoints {leaves : List Bytes} {prev : Option CheckpointRecord}
    {checkpoints : List CheckpointRecord} {links : List CheckpointLink}
    (chain : Chain cll options entries leaves prev checkpoints links) :
    links.map CheckpointLink.checkpoint = checkpoints := by
  induction chain with
  | nil => rfl
  | cons built _ ih => rw [List.map_cons, built.checkpoint, ih]

/-! ## Every link verifies -/

/-- The checkpoint that a link behind it goes on from. -/
def Precedes (cll : Cll) (rootOf : List Bytes → String) (leaves : List Bytes)
    (prev : Option CheckpointRecord) (cp : CheckpointRecord) : Prop :=
  ∀ older ∈ prev, Follows older cp ∧ Covers cll rootOf leaves older

theorem verifyLink_of_built (lawful : cll.Lawful rootOf) {leaves : List Bytes}
    {prev : Option CheckpointRecord} {cp : CheckpointRecord} {link : CheckpointLink}
    (built : Built cll options entries leaves prev cp link)
    (precedes : Precedes cll rootOf leaves prev cp) (covers : Covers cll rootOf leaves cp) :
    verifyLink cll prev link = .ok none := by
  have same := built.checkpoint
  simp only [verifyLink, same, covers.1, if_true]
  cases prev with
  | none => rfl
  | some older =>
      rcases precedes older rfl with ⟨⟨size, root, larger⟩, -, m, positive, -, olderSize, olderRoot⟩
      rcases covers.2 with ⟨n, -, within, newerSize, newerRoot⟩
      have proof := built.proof
      rw [proofOf] at proof
      cases made : cll.consistencyProof leaves older.mmrSize cp.mmrSize with
      | none =>
          rw [made] at proof
          cases proof
      | some found =>
          rw [made] at proof
          have given : link.consistencyProof = some found := (Except.ok.inj proof).symm
          rcases lawful.roots (leaves.take m) with ⟨a, readA⟩
          rcases lawful.roots (leaves.take n) with ⟨b, readB⟩
          have order : m ≤ n := by
            apply Nat.le_of_not_lt
            intro less
            have back := lawful.mono n m (Nat.le_of_lt less)
            rw [olderSize, newerSize] at larger
            exact Nat.lt_irrefl _ (Nat.lt_of_lt_of_le larger back)
          have verified := lawful.consistent leaves m n found a b positive order within
            (by rw [← olderSize, ← newerSize]; exact made) readA readB
          simp only [size, root, given, olderRoot, newerRoot, readA, readB, olderSize, newerSize,
            verified, if_true]
          rw [if_neg (by simp)]

theorem verifyLinks_of_chain (lawful : cll.Lawful rootOf) (trustAnchor : String → Option String)
    {leaves : List Bytes} {prev : Option CheckpointRecord} {checkpoints : List CheckpointRecord}
    {links : List CheckpointLink}
    (chain : Chain cll options entries leaves prev checkpoints links)
    (follows : ∀ cp ∈ checkpoints.head?, Precedes cll rootOf leaves prev cp)
    (chained : checkpoints.IsChain Follows)
    (covers : ∀ cp ∈ checkpoints, Covers cll rootOf leaves cp) (depth witnessed : Nat) :
    verifyLinks cll trustAnchor prev links depth witnessed =
      .ok (none, depth + checkpoints.length,
        witnessed + checkpoints.countP (isStamped cll trustAnchor)) := by
  induction chain generalizing depth witnessed with
  | nil => rfl
  | cons built later ih =>
      rename_i prev cp link checkpoints links
      have here := verifyLink_of_built lawful built (follows cp rfl)
        (covers cp List.mem_cons_self)
      have onward : ∀ next ∈ checkpoints.head?, Precedes cll rootOf leaves (some cp) next := by
        rintro next first older ⟨⟩
        cases checkpoints with
        | nil => cases first
        | cons second rest =>
            cases first
            exact ⟨(List.isChain_cons_cons.mp chained).1, covers cp List.mem_cons_self⟩
      have chainedRest : checkpoints.IsChain Follows := by
        cases checkpoints with
        | nil => exact List.IsChain.nil
        | cons second rest => exact (List.isChain_cons_cons.mp chained).2
      rw [verifyLinks, here]
      dsimp only
      rw [built.checkpoint, ih onward chainedRest
        (fun next inside => covers next (List.mem_cons_of_mem _ inside)), List.countP_cons,
        List.length_cons, Nat.add_right_comm depth, Nat.add_assoc depth]
      cases isStamped cll trustAnchor cp with
      | false => rfl
      | true => rw [if_pos rfl, if_pos rfl, Nat.add_right_comm witnessed, Nat.add_assoc witnessed]

end

end ChainSegment
end CapsuleEmit
