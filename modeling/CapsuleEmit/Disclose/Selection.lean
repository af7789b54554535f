import CapsuleEmit.Disclose.Verify
import CapsuleEmit.Foundation.Lines
import CapsuleEmit.Produce.Validation

namespace CapsuleEmit
namespace Disclose

open Python

/-!
# The records a selector names

A selector is a capsule id, or a range of two of them, or a list of them.  An id
may be shortened to its first eight characters or more where only one record
begins with them; an id that is written in full is always that record.

Records are read from the ledger without its bookkeeping and its padding.
-/

/-- Why no disclosure is built: it is refused, or something raises. -/
inductive Refused where
  | discloseError (text : String)
  | raised (text : String)

/-- What raises where a text is all there is to say. -/
def orRaised {α : Type} (x : Except String α) : Except Refused α := x.mapError .raised

/-! ## Records -/

def nonCapsuleKinds : List String :=
  ["checkpoint_stamp", "disclosure_record", "checkpoint_witness_backfill", "archived_segment"]

/-- Whether an entry is neither bookkeeping nor padding. -/
def isCapsule (entry : Value) : Except String Bool := do
  let kind ← entry.get "kind"
  let recordType ← entry.get "record_type"
  return !nonCapsuleKinds.any (fun name => (Value.str name).eq kind) &&
    !(Value.str "padding").eq recordType

/-- `read_ledger` -/
def readLedger : List Value → Except String (List Value)
  | [] => .ok []
  | entry :: entries => do
      let kept ← isCapsule entry
      let records ← readLedger entries
      return if kept then entry :: records else records

/-- `record.get(key)`, where there is no such member. -/
def member? (record : Value) (key : String) : Option Value :=
  match record with
  | .dict members => Value.lookup key members
  | _ => none

/-- Whether a record has a text for its id. -/
def hasId (id : String) (record : Value) : Bool :=
  match member? record "capsule_id" with
  | some (.str s) => s = id
  | _ => false

/-- `record["capsule_id"]`.  A disclosure record cannot be hashed when one of its keys is no
text, so a record with another id is never disclosed. -/
def idOf (record : Value) : Except Refused String :=
  match member? record "capsule_id" with
  | some (.str s) => .ok s
  | some other => .error (.raised ("capsule_id is a " ++ other.typeName))
  | none => .error (.raised "'capsule_id'")

/-- `record["capsule_id"]` as the key of a dictionary. -/
def requireKey (record : Value) : Except Refused Unit :=
  match member? record "capsule_id" with
  | some (.list _) => .error (.raised "unhashable type: 'list'")
  | some (.dict _) => .error (.raised "unhashable type: 'dict'")
  | some _ => .ok ()
  | none => .error (.raised "'capsule_id'")

/-! ## Selectors -/

variable (packages : Packages)

/-- `token.strip()` -/
def strip (token : String) : String :=
  let space := fun c => Produce.isWhiteSpace c || Produce.isSeparator c
  String.ofList ((token.toList.dropWhile space).reverse.dropWhile space).reverse

/-- Whether the id of a record starts with a token of eight characters or more. -/
def hasIdPrefix (token : String) (record : Value) : Bool :=
  8 ≤ token.length &&
    token.toList.isPrefixOf (((member? record "capsule_id").map (text packages)).getD "").toList

/-- `_match_one`: the place of a record and the record. -/
def matchOne (records : List Value) (token : String) : Except Refused (Value × Nat) :=
  let token := strip token
  let found := records.zipIdx.filter (fun entry =>
    hasId token entry.1 || hasIdPrefix packages token entry.1)
  match found, found.find? (fun entry => hasId token entry.1) with
  | [], _ => .error (.discloseError ("no record matches capsule_id " ++ packages.repr (.str token)))
  | _, some exact => .ok exact
  | [only], none => .ok only
  | several, none => .error (.discloseError ("capsule_id prefix " ++ packages.repr (.str token) ++
      " matches " ++ toString several.length ++ " records — use more characters"))

/-- `selector.partition("..")`, where the dots are there. -/
def partitionDots : List Char → Option (List Char × List Char)
  | [] => none
  | '.' :: '.' :: rest => some ([], rest)
  | c :: rest => (partitionDots rest).map (fun halves => (c :: halves.1, halves.2))

/-- The tokens of a list that are not blank. -/
def listTokens (selector : String) : List String :=
  let pieces := Lines.split ',' selector.toList
  ((pieces.1 ++ [pieces.2]).map String.ofList).filter (fun token => !Produce.pythonBlank token)

/-- The records some tokens name, each of them once, beside their ids. -/
def pick (records : List Value) : List String → List (String × Value) →
    Except Refused (List (String × Value))
  | [], picked => .ok picked
  | token :: tokens, picked => do
      let found ← matchOne packages records token
      let cid ← idOf found.1
      pick records tokens (if cid ∈ picked.map Prod.fst then picked else picked ++ [(cid, found.1)])

/-- The place of the last record with an id. -/
def orderOf (records : List Value) (cid : String) : Nat :=
  ((records.zipIdx.filter (fun entry => hasId cid entry.1)).getLast?.map Prod.snd).getD 0

/-- `_resolve_selector`: the records in ledger order, and whether they are contiguous. -/
def resolveSelector (records : List Value) (selector : String) :
    Except Refused (List Value × String) :=
  match partitionDots selector.toList with
  | some halves => do
      let first ← matchOne packages records (String.ofList halves.1)
      let last ← matchOne packages records (String.ofList halves.2)
      ensure (first.2 ≤ last.2) (.discloseError ("range " ++ packages.repr (.str selector) ++
        " is backwards in ledger order — swap the endpoints"))
      return ((records.drop first.2).take (last.2 + 1 - first.2), "contiguous")
  | none =>
      if ',' ∈ selector.toList then do
        let picked ← pick packages records (listTokens selector) []
        discard (records.mapM requireKey)
        return ((picked.mergeSort (fun a b => orderOf records a.1 ≤ orderOf records b.1)).map
          Prod.snd, "producer-selected")
      else do
        let found ← matchOne packages records selector
        return ([found.1], "contiguous")

/-! ## What a token names -/

/-- A record is the one a token names: the first whose id is the token, or, where there is none,
the only one whose id starts with it. -/
def Names (records : List Value) (token : String) (place : Nat) (record : Value) : Prop :=
  records[place]? = some record ∧
    ((hasId token record = true ∧
        ∀ earlier < place, ∀ other, records[earlier]? = some other → hasId token other = false) ∨
      hasIdPrefix packages token record = true ∧
        ∀ elsewhere ≠ place, ∀ other, records[elsewhere]? = some other →
          hasId token other = false ∧ hasIdPrefix packages token other = false)

/-- A text in front of two dots that has no such pair before its end. -/
def NoDots (left : List Char) : Prop := ¬['.', '.'] <:+: left ++ ['.']

variable {packages}

/-- A text is cut at its first two dots. -/
theorem partitionDots_append {left : List Char} (clean : NoDots left) (right : List Char) :
    partitionDots (left ++ '.' :: '.' :: right) = some (left, right) := by
  induction left with
  | nil => rfl
  | cons c left ih =>
      have rest : NoDots left := fun inside => clean (inside.trans (List.suffix_cons c _).isInfix)
      have apart : ¬(c = '.' ∧ ∃ more, left ++ '.' :: '.' :: right = '.' :: more) := by
        rintro ⟨rfl, more, starts⟩
        apply clean
        cases left with
        | nil => exact List.infix_refl _
        | cons d left =>
            rw [List.cons_append, List.cons.injEq] at starts
            rw [starts.1]
            exact ⟨[], left ++ ['.'], rfl⟩
      rw [List.cons_append, partitionDots.eq_def]
      split
      · next empty => cases empty
      · next more same =>
          rw [List.cons.injEq] at same
          exact absurd ⟨same.1, more, same.2⟩ apart
      · next d more _ same =>
          rw [List.cons.injEq] at same
          rw [← same.1, ← same.2, ih rest]
          rfl

theorem mem_zipIdx_iff {records : List Value} {record : Value} {place : Nat} :
    (record, place) ∈ records.zipIdx ↔ records[place]? = some record := by
  rw [List.mem_zipIdx_iff_getElem?]

/-- The first record a search finds, by its place. -/
theorem first_of_find {records : List Value} {p : Value → Bool} {record : Value} {place : Nat}
    (found : records.zipIdx.find? (fun entry => p entry.1) = some (record, place)) :
    records[place]? = some record ∧ p record = true ∧
      ∀ earlier < place, ∀ other, records[earlier]? = some other → p other = false := by
  rw [List.find?_eq_some_iff_getElem] at found
  rcases found with ⟨holds, i, bound, at_i, before⟩
  rw [List.getElem_zipIdx, Prod.mk.injEq, Nat.zero_add] at at_i
  rcases at_i with ⟨here, rfl⟩
  rw [List.length_zipIdx] at bound
  refine ⟨List.getElem?_eq_some_iff.mpr ⟨bound, here⟩, holds, fun earlier less other there => ?_⟩
  have missed := before earlier less
  rw [List.getElem_zipIdx] at missed
  rcases List.getElem?_eq_some_iff.mp there with ⟨inside, rfl⟩
  simpa using missed

/-- What is matched is what the token names. -/
theorem names_of_matchOne {records : List Value} {token : String} {record : Value} {place : Nat}
    (ok : matchOne packages records token = .ok (record, place)) :
    Names packages records (strip token) place record := by
  unfold matchOne at ok
  generalize strip token = stripped at ok ⊢
  have narrow : (records.zipIdx.filter (fun entry => hasId stripped entry.1 ||
      hasIdPrefix packages stripped entry.1)).find? (fun entry => hasId stripped entry.1) =
      records.zipIdx.find? (fun entry => hasId stripped entry.1) := by
    rw [List.find?_filter]
    congr 1
    funext entry
    cases hasId stripped entry.1 <;> simp
  dsimp only at ok
  rw [narrow] at ok
  split at ok
  · cases ok
  · next exact found _ =>
      cases ok
      rcases first_of_find found with ⟨here, holds, before⟩
      exact ⟨here, Or.inl ⟨holds, before⟩⟩
  · next only single absent =>
      cases ok
      have all : ∀ (other : Value) (elsewhere : Nat), records[elsewhere]? = some other →
          (hasId stripped other || hasIdPrefix packages stripped other) = true →
            (other, elsewhere) = (record, place) := by
        intro other elsewhere there matched
        have inside : (other, elsewhere) ∈ records.zipIdx.filter (fun entry =>
            hasId stripped entry.1 || hasIdPrefix packages stripped entry.1) :=
          List.mem_filter.mpr ⟨mem_zipIdx_iff.mpr there, matched⟩
        rw [single, List.mem_singleton] at inside
        exact inside
      have member : (record, place) ∈ records.zipIdx.filter (fun entry =>
          hasId stripped entry.1 || hasIdPrefix packages stripped entry.1) := by
        rw [single]
        exact List.mem_singleton_self _
      rw [List.mem_filter, mem_zipIdx_iff] at member
      have noExact : ∀ (other : Value) (elsewhere : Nat), records[elsewhere]? = some other →
          hasId stripped other = false := by
        intro other elsewhere there
        simpa using List.find?_eq_none.mp absent _ (mem_zipIdx_iff.mpr there)
      refine ⟨member.1, Or.inr ⟨?_, fun elsewhere apart other there => ?_⟩⟩
      · have matched := member.2
        rwa [noExact record place member.1, Bool.false_or] at matched
      · refine ⟨noExact other elsewhere there, ?_⟩
        by_contra matched
        rw [Bool.not_eq_false] at matched
        have same := all other elsewhere there (by rw [matched, Bool.or_true])
        exact apart (Prod.mk.inj same).2
  · cases ok

/-! ## What is selected -/

theorem readLedger_sublist {entries records : List Value} (ok : readLedger entries = .ok records) :
    records.Sublist entries ∧ ∀ record ∈ records, isCapsule record = .ok true := by
  induction entries generalizing records with
  | nil =>
      cases ok
      exact ⟨List.Sublist.slnil, nofun⟩
  | cons entry entries ih =>
      rcases bind_eq_ok_iff.mp ok with ⟨kept, kind, ok⟩
      rcases bind_eq_ok_iff.mp ok with ⟨others, rest, same⟩
      rcases ih rest with ⟨sub, all⟩
      cases kept with
      | true =>
          cases same
          exact ⟨sub.cons_cons entry, List.forall_mem_cons.mpr ⟨kind, all⟩⟩
      | false =>
          cases same
          exact ⟨sub.cons entry, all⟩

theorem hasId_iff {id : String} {record : Value} :
    hasId id record = true ↔ idOf record = .ok id := by
  unfold hasId idOf
  cases member? record "capsule_id" with
  | none => simp
  | some value => cases value <;> simp

/-- What is picked by tokens: records of the ledger under their own ids, each id once. -/
theorem pick_spec {records : List Value} {tokens : List String}
    {picked result : List (String × Value)} (ok : pick packages records tokens picked = .ok result)
    (own : ∀ entry ∈ picked, idOf entry.2 = .ok entry.1) (once : (picked.map Prod.fst).Nodup) :
    (∀ entry ∈ result, idOf entry.2 = .ok entry.1) ∧ (result.map Prod.fst).Nodup := by
  induction tokens generalizing picked with
  | nil =>
      cases ok
      exact ⟨own, once⟩
  | cons token tokens ih =>
      rcases bind_eq_ok_iff.mp ok with ⟨found, -, ok⟩
      rcases bind_eq_ok_iff.mp ok with ⟨cid, named, ok⟩
      by_cases there : cid ∈ picked.map Prod.fst
      · rw [if_pos there] at ok
        exact ih ok own once
      · rw [if_neg there] at ok
        refine ih ok ?_ ?_
        · intro entry inside
          rcases List.mem_append.mp inside with old | new
          · exact own entry old
          · rw [List.mem_singleton.mp new]
            exact named
        · rw [List.map_append, List.map_singleton, List.nodup_append]
          refine ⟨once, List.nodup_singleton _, ?_⟩
          intro other inside last same equal
          rw [equal, List.mem_singleton.mp same] at inside
          exact there inside

/-- The records of a selector are a part of the ledger, or have different ids. -/
theorem resolveSelector_spec {records selected : List Value} {selector mode : String}
    (ok : resolveSelector packages records selector = .ok (selected, mode)) :
    selected.Sublist records ∨ ∃ ids, ids.Nodup ∧
      List.Forall₂ (fun record id => idOf record = .ok id) selected ids := by
  unfold resolveSelector at ok
  split at ok
  · left
    rcases bind_eq_ok_iff.mp ok with ⟨first, -, ok⟩
    rcases bind_eq_ok_iff.mp ok with ⟨last, -, ok⟩
    rcases bind_eq_ok_iff.mp ok with ⟨-, -, ok⟩
    cases ok
    exact (List.take_sublist _ _).trans (List.drop_sublist _ _)
  · split at ok
    · right
      rcases bind_eq_ok_iff.mp ok with ⟨picked, each, ok⟩
      rcases bind_eq_ok_iff.mp ok with ⟨-, -, ok⟩
      cases ok
      rcases pick_spec each nofun List.nodup_nil with ⟨own, once⟩
      have perm := List.mergeSort_perm picked
        (fun a b => orderOf records a.1 ≤ orderOf records b.1)
      refine ⟨_, (perm.map Prod.fst).nodup_iff.mpr once, ?_⟩
      rw [List.forall₂_map_left_iff, List.forall₂_map_right_iff, List.forall₂_same]
      exact fun entry inside => own entry (perm.mem_iff.mp inside)
    · left
      rcases bind_eq_ok_iff.mp ok with ⟨found, matched, ok⟩
      cases ok
      rw [List.singleton_sublist]
      exact List.mem_of_getElem? (names_of_matchOne matched).1

/-- A range is the records from the one its first half names through the one its second half
names. -/
theorem resolveSelector_range {records selected : List Value} {selector mode : String}
    {left right : List Char} (clean : NoDots left)
    (form : selector.toList = left ++ '.' :: '.' :: right)
    (ok : resolveSelector packages records selector = .ok (selected, mode)) :
    ∃ i j first last, Names packages records (strip (String.ofList left)) i first ∧
      Names packages records (strip (String.ofList right)) j last ∧ i ≤ j ∧
        selected = (records.drop i).take (j + 1 - i) := by
  rw [resolveSelector, form, partitionDots_append clean] at ok
  rcases bind_eq_ok_iff.mp ok with ⟨first, front, ok⟩
  rcases bind_eq_ok_iff.mp ok with ⟨last, back, ok⟩
  rcases bind_eq_ok_iff.mp ok with ⟨done, ordered, ok⟩
  cases ok
  rw [ensure_eq_ok_iff, decide_eq_true_eq] at ordered
  exact ⟨first.2, last.2, first.1, last.1, names_of_matchOne front, names_of_matchOne back, ordered,
    rfl⟩

end Disclose
end CapsuleEmit
