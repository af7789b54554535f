import CapsuleEmit.ChainSegment.Verify
import Mathlib.Algebra.Ring.Int.Defs
import Mathlib.Data.List.Chain

namespace CapsuleEmit
namespace ChainSegment

open Python (Value Dict)

/-!
# What a segment covers

The sizes of a chain grow, so the position of a checkpoint of the chain splits
it by size: what is selected between two sizes is every checkpoint between
them.  The own leaves of the links join end to end, so the counts of the links
add up to the counts over the whole span.
-/

/-! ## Growing lists -/

section Growing

variable {α : Type} {size : α → Nat}

theorem filter_below {bound : Nat} {l : List α} (above : ∀ a ∈ l, bound < size a) :
    l.filter (fun a => decide (size a ≤ bound)) = [] := by
  apply List.filter_eq_nil_iff.mpr
  intro a inside
  rw [decide_eq_true_eq]
  exact Nat.not_le_of_lt (above a inside)

variable [DecidableEq α]

theorem findIdx_of_ne {first x : α} (l : List α) (different : first ≠ x) :
    (first :: l).findIdx (fun a => a = x) = l.findIdx (fun a => a = x) + 1 := by
  rw [List.findIdx_cons, decide_eq_false different]
  rfl

theorem findIdx_self (x : α) (l : List α) : (x :: l).findIdx (fun a => a = x) = 0 := by
  rw [List.findIdx_cons, decide_eq_true rfl]
  rfl

/-- Up to an element of a growing list there are the elements that are not larger. -/
theorem take_findIdx {l : List α} (grows : l.Pairwise (fun a b => size a < size b)) {x : α}
    (inside : x ∈ l) : l.take (l.findIdx (fun a => a = x) + 1) =
      l.filter (fun a => decide (size a ≤ size x)) := by
  induction l with
  | nil => cases inside
  | cons first l ih =>
      rcases List.pairwise_cons.mp grows with ⟨least, growsRest⟩
      by_cases same : first = x
      · rw [same, findIdx_self, List.take_succ_cons, List.take_zero,
          List.filter_cons, if_pos (decide_eq_true (Nat.le_refl (size x))),
          filter_below (fun a later => same ▸ least a later)]
      · have later : x ∈ l := (List.mem_cons.mp inside).resolve_left (Ne.symm same)
        rw [findIdx_of_ne l same, List.take_succ_cons, ih growsRest later, List.filter_cons,
          if_pos (decide_eq_true (Nat.le_of_lt (least x later)))]

/-- From one element of a growing list up to another there are the elements between them. -/
theorem slice_findIdx {l : List α} (grows : l.Pairwise (fun a b => size a < size b)) {x y : α}
    (fromThis : x ∈ l) (toThat : y ∈ l)
    (order : l.findIdx (fun a => a = x) ≤ l.findIdx (fun a => a = y)) :
    (l.take (l.findIdx (fun a => a = y) + 1)).drop (l.findIdx (fun a => a = x)) =
      l.filter (fun a => decide (size x ≤ size a ∧ size a ≤ size y)) := by
  induction l with
  | nil => cases fromThis
  | cons first l ih =>
      rcases List.pairwise_cons.mp grows with ⟨least, growsRest⟩
      by_cases same : first = x
      · rw [take_findIdx grows toThat, same, findIdx_self, List.drop_zero]
        apply List.filter_congr
        intro a here
        apply decide_eq_decide.mpr
        have lower : size x ≤ size a := by
          rcases List.mem_cons.mp here with rfl | later
          · exact Nat.le_refl _
          · exact Nat.le_of_lt (same ▸ least a later)
        exact ⟨fun upper => ⟨lower, upper⟩, fun both => both.2⟩
      · have later : x ∈ l := (List.mem_cons.mp fromThis).resolve_left (Ne.symm same)
        rw [findIdx_of_ne l same] at order ⊢
        have other : first ≠ y := by
          intro equal
          rw [equal, findIdx_self] at order
          exact Nat.not_succ_le_zero _ order
        have second : y ∈ l := (List.mem_cons.mp toThat).resolve_left (Ne.symm other)
        rw [findIdx_of_ne l other] at order ⊢
        rw [List.take_succ_cons, List.drop_succ_cons,
          ih growsRest later second (Nat.le_of_succ_le_succ order), List.filter_cons_of_neg]
        rw [decide_eq_true_eq]
        exact fun both => Nat.not_le_of_lt (least x later) both.1

end Growing

/-! ## What is selected -/

theorem bySize_eq_some {checkpoints : List CheckpointRecord} {size : Nat} {cp : CheckpointRecord}
    (found : bySize checkpoints size = some cp) : cp ∈ checkpoints ∧ cp.mmrSize = size :=
  ⟨List.mem_reverse.mp (List.mem_of_find?_eq_some found),
    by simpa only [decide_eq_true_eq] using List.find?_some found⟩

/-- The checkpoints that a selection asks for. -/
def Range.Selects (checkpoints chosen : List CheckpointRecord) : Range → Prop
  | .last n => chosen <:+ checkpoints ∧ chosen.length = min n checkpoints.length
  | .between fromSize toSize =>
      chosen = checkpoints.filter (fun cp => decide (fromSize ≤ cp.mmrSize ∧ cp.mmrSize ≤ toSize)) ∧
        (∃ cp ∈ checkpoints, cp.mmrSize = toSize) ∧
        (fromSize ≠ 0 → ∃ cp ∈ checkpoints, cp.mmrSize = fromSize)

theorem selects {checkpoints chosen : List CheckpointRecord} {range : Range}
    (grows : checkpoints.Pairwise (fun a b => a.mmrSize < b.mmrSize))
    (answer : selected checkpoints range = .ok chosen) : range.Selects checkpoints chosen := by
  cases range with
  | last n =>
      cases answer
      refine ⟨List.drop_suffix _ _, ?_⟩
      rw [List.length_drop]
      omega
  | between fromSize toSize =>
      rw [selected] at answer
      cases ending : bySize checkpoints toSize with
      | none =>
          simp only [ending] at answer
          split at answer
          · split at answer <;> cases answer
          · cases answer
      | some last =>
          rcases bySize_eq_some ending with ⟨lastInside, lastSize⟩
          simp only [ending] at answer
          split at answer
          · next whole =>
              cases answer
              refine ⟨?_, ⟨last, lastInside, lastSize⟩, fun nonzero => absurd whole nonzero⟩
              rw [take_findIdx grows lastInside, lastSize, whole]
              apply List.filter_congr
              intro cp _
              exact decide_eq_decide.mpr ⟨fun upper => ⟨Nat.zero_le _, upper⟩, And.right⟩
          · cases starting : bySize checkpoints fromSize with
            | none =>
                rw [starting] at answer
                cases answer
            | some first =>
                rcases bySize_eq_some starting with ⟨firstInside, firstSize⟩
                simp only [starting] at answer
                split at answer
                · cases answer
                · next order =>
                    cases answer
                    refine ⟨?_, ⟨last, lastInside, lastSize⟩,
                      fun _ => ⟨first, firstInside, firstSize⟩⟩
                    rw [slice_findIdx grows firstInside lastInside (Nat.le_of_not_lt order),
                      firstSize, lastSize]

/-- A selection is a run of the checkpoints. -/
theorem selected_infix {checkpoints chosen : List CheckpointRecord} {range : Range}
    (answer : selected checkpoints range = .ok chosen) : chosen <:+: checkpoints := by
  cases range with
  | last n =>
      cases answer
      exact (List.drop_suffix _ _).isInfix
  | between fromSize toSize =>
      rw [selected] at answer
      split at answer
      · split at answer
        · split at answer <;> cases answer
        · cases answer
      · split at answer
        · cases answer
          exact (List.take_prefix _ _).isInfix
        · split at answer
          · cases answer
          · dsimp only at answer
            split at answer
            · cases answer
            · cases answer
              exact (List.drop_suffix _ _).isInfix.trans (List.take_prefix _ _).isInfix

section

variable {cll : Cll} {rootOf : List Bytes → String} {options : Options} {entries : List Dict}

/-! ## Own leaves end to end -/

theorem ownEntries_append {a b c : Nat} (lower : a ≤ b) (upper : b ≤ c) :
    ownEntries entries a c = ownEntries entries a b ++ ownEntries entries b c := by
  have split : c - a = (b - a) + (c - b) := by omega
  rw [ownEntries, ownEntries, ownEntries, List.drop_take, List.drop_take, List.drop_take, split,
    List.take_add, List.drop_drop, Nat.add_sub_cancel' lower]

/-- The leaves that checkpoints cover, one after another, from one number on up to another. -/
def Spanning (cll : Cll) : Nat → List CheckpointRecord → Nat → Prop
  | start, [], stop => start = stop
  | start, cp :: rest, stop => ∃ next, start ≤ next ∧ cp.prevSize = cll.nodeCount start ∧
      cp.mmrSize = cll.nodeCount next ∧ Spanning cll next rest stop

theorem Spanning.le {checkpoints : List CheckpointRecord} {start stop : Nat}
    (spanning : Spanning cll start checkpoints stop) : start ≤ stop := by
  induction checkpoints generalizing start with
  | nil => exact Nat.le_of_eq spanning
  | cons cp rest ih =>
      rcases spanning with ⟨next, lower, -, -, later⟩
      exact Nat.le_trans lower (ih later)

/-- Every checkpoint of a span covers a number of leaves that the span does not pass. -/
theorem Spanning.within {checkpoints : List CheckpointRecord} {start stop : Nat}
    (spanning : Spanning cll start checkpoints stop) {cp : CheckpointRecord}
    (inside : cp ∈ checkpoints) : ∃ n, n ≤ stop ∧ cp.mmrSize = cll.nodeCount n := by
  induction checkpoints generalizing start with
  | nil => cases inside
  | cons first rest ih =>
      rcases spanning with ⟨next, -, -, size, later⟩
      rcases List.mem_cons.mp inside with rfl | inside
      · exact ⟨next, later.le, size⟩
      · exact ih later inside

theorem Spanning.append {front back : List CheckpointRecord} {start stop : Nat}
    (spanning : Spanning cll start (front ++ back) stop) :
    ∃ middle, Spanning cll start front middle ∧ Spanning cll middle back stop := by
  induction front generalizing start with
  | nil => exact ⟨start, rfl, spanning⟩
  | cons cp front ih =>
      rcases spanning with ⟨next, lower, prev, size, later⟩
      rcases ih later with ⟨middle, first, second⟩
      exact ⟨middle, ⟨next, lower, prev, size, first⟩, second⟩

theorem Spanning.head {checkpoints : List CheckpointRecord} {start stop : Nat}
    (spanning : Spanning cll start checkpoints stop) {first : CheckpointRecord}
    (starts : checkpoints.head? = some first) : first.prevSize = cll.nodeCount start := by
  cases checkpoints with
  | nil => cases starts
  | cons cp rest =>
      cases starts
      rcases spanning with ⟨next, -, prev, -, -⟩
      exact prev

theorem Spanning.last {checkpoints : List CheckpointRecord} {start stop : Nat}
    (spanning : Spanning cll start checkpoints stop) {last : CheckpointRecord}
    (ends : checkpoints.getLast? = some last) : last.mmrSize = cll.nodeCount stop := by
  induction checkpoints generalizing start with
  | nil => cases ends
  | cons cp rest ih =>
      rcases spanning with ⟨next, -, -, size, later⟩
      cases rest with
      | nil =>
          cases ends
          rw [show next = stop from later] at size
          exact size
      | cons second rest =>
          rw [List.getLast?_cons_cons] at ends
          exact ih later ends

/-- Counts of the links add up to the count over the span. -/
theorem counts_of_chain (lawful : cll.Lawful rootOf) {leaves : List Bytes}
    {prev : Option CheckpointRecord} {checkpoints : List CheckpointRecord}
    {links : List CheckpointLink}
    (chain : Chain cll options entries leaves prev checkpoints links) {start stop : Nat}
    (spanning : Spanning cll start checkpoints stop) (kind : String) :
    (links.map (fun link => kindCount kind link.leafCounts)).sum =
      ((ownEntries entries start stop).countP (isKind options kind) : Int) := by
  induction chain generalizing start with
  | nil =>
      rw [show start = stop from spanning, ownEntries, List.drop_take, Nat.sub_self]
      rfl
  | cons built later ih =>
      rcases spanning with ⟨next, lower, prevSize, size, rest⟩
      rcases built.counted with ⟨a, b, first, second, counted⟩
      rw [prevSize, lawful.leaves_nodes] at first
      rw [size, lawful.leaves_nodes] at second
      cases first
      cases second
      rw [List.map_cons, List.sum_cons, counted, ih rest, ownEntries_append lower rest.le,
        List.countP_append, Int.natCast_add]

/-! ## The checkpoints of a history -/

theorem Cll.Lawful.le_of_nodes (lawful : cll.Lawful rootOf) {m n : Nat}
    (sizes : cll.nodeCount m ≤ cll.nodeCount n) : m ≤ n := by
  rcases Nat.le_total m n with order | order
  · exact order
  · have same := Nat.le_antisymm sizes (lawful.mono n m order)
    have counted := lawful.leaves_nodes m
    rw [same, lawful.leaves_nodes n] at counted
    exact Nat.le_of_eq (Option.some.inj counted).symm

/-- A chain that starts where some leaves end is a span from there on. -/
theorem spanning_of_chained (lawful : cll.Lawful rootOf) {leaves : List Bytes}
    {checkpoints : List CheckpointRecord} {start : Nat}
    (starts : ∀ cp ∈ checkpoints.head?,
      cp.prevSize = cll.nodeCount start ∧ cll.nodeCount start ≤ cp.mmrSize)
    (chained : checkpoints.IsChain Follows)
    (covers : ∀ cp ∈ checkpoints, Covers cll rootOf leaves cp) :
    ∃ stop, Spanning cll start checkpoints stop := by
  induction checkpoints generalizing start with
  | nil => exact ⟨start, rfl⟩
  | cons cp rest ih =>
      rcases starts cp rfl with ⟨prev, lower⟩
      rcases (covers cp List.mem_cons_self).2 with ⟨next, -, -, size, -⟩
      have onward : ∀ second ∈ rest.head?,
          second.prevSize = cll.nodeCount next ∧ cll.nodeCount next ≤ second.mmrSize := by
        intro second isFirst
        cases rest with
        | nil => cases isFirst
        | cons other rest =>
            cases isFirst
            rcases (List.isChain_cons_cons.mp chained).1 with ⟨prevSize, -, larger⟩
            rw [← size]
            exact ⟨prevSize, Nat.le_of_lt larger⟩
      have chainedRest : rest.IsChain Follows := by
        cases rest with
        | nil => exact List.IsChain.nil
        | cons other rest => exact (List.isChain_cons_cons.mp chained).2
      rcases ih onward chainedRest (fun later inside => covers later (List.mem_cons_of_mem _ inside))
        with ⟨stop, spanning⟩
      refine ⟨stop, next, lawful.le_of_nodes ?_, prev, size, spanning⟩
      rw [← size]
      exact lower

theorem grows_of_chained {checkpoints : List CheckpointRecord}
    (chained : checkpoints.IsChain Follows) :
    checkpoints.Pairwise (fun a b => a.mmrSize < b.mmrSize) := by
  have sizes : checkpoints.IsChain (fun a b => a.mmrSize < b.mmrSize) :=
    chained.imp (fun _ _ follows => follows.2.2)
  have transitive : IsTrans CheckpointRecord (fun a b => a.mmrSize < b.mmrSize) :=
    ⟨fun _ _ _ => Nat.lt_trans⟩
  exact List.isChain_iff_pairwise.mp sizes

/-- A checkpoint covers the same leaves of any part of them that is long enough. -/
theorem Covers.take {leaves : List Bytes} {cp : CheckpointRecord} {n k : Nat}
    (lawful : cll.Lawful rootOf) (covers : Covers cll rootOf leaves cp)
    (size : cp.mmrSize = cll.nodeCount n) (order : n ≤ k) :
    Covers cll rootOf (leaves.take k) cp := by
  rcases covers with ⟨signed, m, positive, within, sizeM, root⟩
  have same : m = n := by
    have counted := lawful.leaves_nodes m
    rw [← sizeM, size, lawful.leaves_nodes n] at counted
    exact (Option.some.inj counted).symm
  refine ⟨signed, m, positive, ?_, sizeM, ?_⟩
  · rw [List.length_take]
    omega
  · rw [root, List.take_take, Nat.min_eq_left (by omega)]

/-! ## Segments of a history -/

/-- Where a segment of a history lies: it is built of a run of the checkpoints, over the leaves up
to the last of them. -/
theorem chainSegment_eq_ok {asked : Selection} {segment : Segment}
    (built : chainSegment cll options entries asked = .ok segment) {checkpoints : List CheckpointRecord}
    (stamped : (stampEntries options entries).mapM (stampOf cll) = .ok checkpoints) :
    ∃ range chosen last covered digests, checkSelection asked = .ok range ∧
      selected checkpoints range = .ok chosen ∧ chosen.getLast? = some last ∧
      cll.leafCount last.mmrSize = some covered ∧
      (entries.take covered).mapM (recordDigest options.idField) = .ok digests ∧
      Chain cll options entries (digests.map cll.leafHash) none chosen segment.links := by
  rw [chainSegment] at built
  split at built
  · cases built
  · rcases bind_eq_ok_iff.mp built with ⟨range, wanted, built⟩
    rcases bind_eq_ok_iff.mp built with ⟨found, read, built⟩
    rw [stamped] at read
    cases read
    split at built
    · cases built
    · rcases bind_eq_ok_iff.mp built with ⟨chosen, selection, built⟩
      split at built
      · cases built
      · next last ends =>
          rcases bind_eq_ok_iff.mp built with ⟨covered, counted, built⟩
          rcases bind_eq_ok_iff.mp built with ⟨digests, known, built⟩
          dsimp only at built
          split at built
          · cases built
          · rcases bind_eq_ok_iff.mp built with ⟨links, linked, same⟩
            cases same
            exact ⟨range, chosen, last, covered, digests, wanted, selection, ends,
              leafCountOf_eq_ok counted, known, buildLinks_eq_ok linked⟩

/-- Over a log whose checkpoints are one chain, a segment that is built holds the checkpoints that
were asked for, it verifies unbroken to its full depth, every checkpoint with a stamp that verifies
is counted, and its counts of each kind add up to the leaves of that kind from its first
checkpoint's start to its last checkpoint's end. -/
theorem segment_verifies (lawful : cll.Lawful rootOf) {digests : List Bytes}
    {checkpoints : List CheckpointRecord}
    (history : History cll rootOf options entries digests checkpoints) {asked : Selection}
    {segment : Segment} (trustAnchor : String → Option String)
    (built : chainSegment cll options entries asked = .ok segment) :
    ∃ range chosen start stop, checkSelection asked = .ok range ∧
      range.Selects checkpoints chosen ∧ chosen <:+: checkpoints ∧
      segment.links.map CheckpointLink.checkpoint = chosen ∧
      verifyChainSegment cll trustAnchor segment = .ok ⟨true, [], "unbroken", chosen.length,
        toString (chosen.countP (isStamped cll trustAnchor)) ++ "/" ++ toString chosen.length⟩ ∧
      (chosen.head?.map CheckpointRecord.prevSize = some (cll.nodeCount start) ∧
        chosen.getLast?.map CheckpointRecord.mmrSize = some (cll.nodeCount stop)) ∧
      ∀ kind, (segment.links.map (fun link => kindCount kind link.leafCounts)).sum =
        ((ownEntries entries start stop).countP (isKind options kind) : Int) := by
  rcases chainSegment_eq_ok built history.stamped with
    ⟨range, chosen, last, covered, known, wanted, selection, ends, counted, read, chain⟩
  have part := selected_infix selection
  have inside : ∀ cp ∈ chosen, cp ∈ checkpoints := fun _ member => part.subset member
  have whole : ∃ stop, Spanning cll 0 checkpoints stop := by
    apply spanning_of_chained lawful _ history.chained history.covers
    intro cp isFirst
    rcases (history.covers cp (List.mem_of_mem_head? isFirst)).2 with ⟨n, -, -, size, -⟩
    exact ⟨history.first cp isFirst, size ▸ lawful.mono 0 n (Nat.zero_le n)⟩
  have spanning : ∃ start stop, Spanning cll start chosen stop := by
    rcases part with ⟨front, back, same⟩
    rcases whole with ⟨finish, whole⟩
    rw [← same] at whole
    rcases whole.append with ⟨stop, whole, -⟩
    rcases whole.append with ⟨start, -, here⟩
    exact ⟨start, stop, here⟩
  rcases spanning with ⟨start, stop, spanning⟩
  have coveredStop : stop = covered := by
    have size := spanning.last ends
    rw [size, lawful.leaves_nodes] at counted
    exact Option.some.inj counted
  have leaves : known.map cll.leafHash = (digests.map cll.leafHash).take covered := by
    rw [mapM_take history.records covered] at read
    rw [← Except.ok.inj read, List.map_take]
  have covers : ∀ cp ∈ chosen, Covers cll rootOf (known.map cll.leafHash) cp := by
    intro cp member
    rcases spanning.within member with ⟨n, order, size⟩
    rw [leaves]
    exact (history.covers cp (inside cp member)).take lawful size (coveredStop ▸ order)
  have nonempty : chosen ≠ [] := by
    intro empty
    rw [empty] at ends
    cases ends
  have verified := verifyLinks_of_chain lawful trustAnchor chain (fun _ _ _ none => nomatch none)
    ( List.IsChain.infix history.chained part) covers 0 0
  have linked := chain.checkpoints
  have depth : segment.links.length = chosen.length := by rw [← linked, List.length_map]
  refine ⟨range, chosen, start, stop, wanted, selects (grows_of_chained history.chained) selection,
    part, linked, ?_, ⟨?_, ?_⟩, counts_of_chain lawful chain spanning⟩
  · rw [verifyChainSegment, if_neg, verified]
    · simp only [Nat.zero_add, depth]
      rfl
    · intro empty
      rw [List.isEmpty_iff.mp empty] at depth
      exact nonempty (List.length_eq_zero_iff.mp depth.symm)
  · cases starts : chosen.head? with
    | none => exact absurd (List.head?_eq_none_iff.mp starts) nonempty
    | some first => exact congrArg some (spanning.head starts)
  · rw [ends]
    exact congrArg some (spanning.last ends)

end

/-! ## A sample log -/

namespace SampleLog

/-- `checkpoint.from_dict`, of the members that the sample has. -/
def readCheckpoint (value : Value) : Except String CheckpointRecord :=
  match item "mmr_size" value, (item "root" value).bind Value.str?, item "prev_size" value,
    (item "prev_root" value).bind Value.str? with
  | some (.int size), some root, some (.int prev), some prevRoot =>
      .ok ⟨"log", size.toNat, root, prev.toNat, prevRoot, "key", "t", "sig", []⟩
  | _, _, _, _ => .error "malformed checkpoint"

/-- The root is the text of the leaves; up to four leaves sizes are those of a mountain range. -/
def cll : Cll where
  leafHash := id
  nodeCount n := n + n / 2
  leafCount size := if size % 3 = 2 then none else some (size / 3 * 2 + size % 3)
  consistencyProof _ a b := some ⟨1, "consistency", a, b, [], [], []⟩
  verifyConsistency _ a _ b proof := decide (proof.sizeA = a ∧ proof.sizeB = b)
  verifySignature cp := cp.signature = "sig"
  witnessed _ _ _ := false
  checkpointOf := readCheckpoint
  toDict _ := .none

def rootOf (leaves : List Bytes) : String := Sha256.hex leaves.flatten

theorem lawful : cll.Lawful rootOf where
  leaves_nodes n := by
    have remainder : (n + n / 2) % 3 ≠ 2 := by omega
    have count : (n + n / 2) / 3 * 2 + (n + n / 2) % 3 = n := by omega
    simp only [cll, if_neg remainder, count]
  mono m n order := by
    simp only [cll]
    omega
  roots leaves := ⟨leaves.flatten, Python.fromHex_hex _⟩
  consistent leaves m n proof a b _ _ _ made _ _ := by
    cases made
    exact decide_eq_true ⟨rfl, rfl⟩

def stamp (id : String) (size prev : Nat) (root prevRoot : String) : Dict :=
  [("capsule_id", .str id), ("kind", .str "checkpoint_stamp"),
    ("checkpoint", .dict [("mmr_size", .int size), ("root", .str root), ("prev_size", .int prev),
      ("prev_root", .str prevRoot)])]

def entries : List Dict :=
  [[("capsule_id", .str "aa")], stamp "bb" 1 0 "aa" "00", [("capsule_id", .str "cc")],
    stamp "dd" 4 1 "aabbcc" "aa"]

def options : Options where
  classify entry := .ok (defaultClassify (fun _ => "") "kind" "checkpoint_stamp" entry)
  selfOwnerId := none
  leafDigests := true
  idField := "capsule_id"
  kindField := "kind"
  stampKind := "checkpoint_stamp"

def first : CheckpointRecord := ⟨"log", 1, "aa", 0, "00", "key", "t", "sig", []⟩

def second : CheckpointRecord := ⟨"log", 4, "aabbcc", 1, "aa", "key", "t", "sig", []⟩

theorem history : History cll rootOf options entries [[0xaa], [0xbb], [0xcc], [0xdd]]
    [first, second] where
  records := by rfl
  stamped := by rfl
  first := by
    rintro cp ⟨⟩
    rfl
  chained := List.isChain_cons_cons.mpr ⟨⟨rfl, rfl, by decide⟩, List.IsChain.singleton _⟩
  covers cp inside := by
    rcases List.mem_cons.mp inside with rfl | inside
    · exact ⟨rfl, 1, by decide, by decide, rfl, by rfl⟩
    · cases List.mem_singleton.mp inside
      exact ⟨rfl, 3, by decide, by decide, rfl, by rfl⟩

def asked : Selection := ⟨some 1, some 4, none⟩

def segment : Segment := ⟨1,
  [⟨first, none, none, [("capsule", .int 1)], none, some [.str "aa"]⟩,
    ⟨second, some ⟨1, "consistency", 1, 4, [], [], []⟩, none,
      [("stamp", .int 1), ("capsule", .int 1)], none, some [.str "bb", .str "cc"]⟩]⟩

end SampleLog

/-- The segment of the two checkpoints of the sample log, with the leaf of the log's first record
and the two behind it. -/
theorem segment_verifies_sample :
    ∃ range chosen start stop, checkSelection SampleLog.asked = .ok range ∧
      range.Selects [SampleLog.first, SampleLog.second] chosen ∧
      chosen <:+: [SampleLog.first, SampleLog.second] ∧
      SampleLog.segment.links.map CheckpointLink.checkpoint = chosen ∧
      verifyChainSegment SampleLog.cll (fun _ => none) SampleLog.segment =
        .ok ⟨true, [], "unbroken", chosen.length,
          toString (chosen.countP (isStamped SampleLog.cll (fun _ => none))) ++ "/" ++
            toString chosen.length⟩ ∧
      (chosen.head?.map CheckpointRecord.prevSize = some (SampleLog.cll.nodeCount start) ∧
        chosen.getLast?.map CheckpointRecord.mmrSize = some (SampleLog.cll.nodeCount stop)) ∧
      ∀ kind, (SampleLog.segment.links.map (fun link => kindCount kind link.leafCounts)).sum =
        ((ownEntries SampleLog.entries start stop).countP (isKind SampleLog.options kind) : Int) :=
  segment_verifies SampleLog.lawful SampleLog.history (fun _ => none)
    (show chainSegment SampleLog.cll SampleLog.options SampleLog.entries SampleLog.asked =
      .ok SampleLog.segment by rfl)

end ChainSegment
end CapsuleEmit
