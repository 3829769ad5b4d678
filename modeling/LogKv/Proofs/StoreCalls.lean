import Mathlib.Data.List.Nodup
import LogKv.Proofs.LastWords
import LogKv.Storage

/-! Calls on a store in memory, one after another, from the empty store on. What it
lists and answers in the end depends on the past alone: a key has the value that the
last put gave it, unless a deletion of the key has succeeded since. Each key is listed
once, in the order of the keys, and the size is the number of keys. -/
namespace LogKv

/-! ## The order of the keys -/

/-- A string comes before another one that goes on where it ends, and before one that
has a greater byte where they first differ. -/
inductive Bytes.Precedes : Bytes → Bytes → Prop where
  | ended (a : Bytes) (b : UInt8) (rest : Bytes) : Precedes a (a ++ b :: rest)
  | smaller (same : Bytes) {a b : UInt8} (less : a.toNat < b.toNat) (one two : Bytes) :
      Precedes (same ++ a :: one) (same ++ b :: two)

theorem Bytes.Precedes.cons {a b : Bytes} (precedes : Precedes a b) (first : UInt8) :
    Precedes (first :: a) (first :: b) := by
  cases precedes with
  | ended a b rest => exact .ended (first :: a) b rest
  | smaller same less one two => exact .smaller (first :: same) less one two

theorem Bytes.precedes_of_lt {a b : Bytes} (less : a < b) : Precedes a b := by
  induction less with
  | nil => exact .ended [] _ _
  | rel less => exact .smaller [] (UInt8.lt_iff_toNat_lt.mp less) _ _
  | cons less ih => exact ih.cons _

namespace Store

variable {s : Store} {key value : Bytes} {bindings : List (Bytes × Bytes)}

/-! ## Bindings -/

theorem mem_iff_lookup (increasing : bindings.Pairwise fun a b => a.1 < b.1) :
    (key, value) ∈ bindings ↔ lookup key bindings = some value := by
  induction bindings with
  | nil => simp [lookup]
  | cons first rest ih =>
    obtain ⟨above, sorted⟩ := List.pairwise_cons.mp increasing
    rw [List.mem_cons, lookup, ih sorted]
    split
    · next same =>
      subst same
      rw [lookup_eq_none_of_lt above]
      simp [Prod.ext_iff, eq_comm]
    · next other =>
      have behind : (key, value) ≠ first := fun here => other (here ▸ rfl)
      simp [behind]

theorem length_insert (increasing : bindings.Pairwise fun a b => a.1 < b.1) :
    (insert key value bindings).length =
      if lookup key bindings = none then bindings.length + 1 else bindings.length := by
  induction bindings with
  | nil => rfl
  | cons first rest ih =>
    obtain ⟨above, sorted⟩ := List.pairwise_cons.mp increasing
    rw [insert]
    split
    · next same => simp [lookup, same]
    · next other =>
      rw [lookup, if_neg (Ne.symm other)]
      split
      · next less =>
        have unbound : lookup key rest = none :=
          lookup_eq_none_of_lt fun b member => List.lt_trans less (above b member)
        rw [if_pos unbound, List.length_cons]
      · rw [List.length_cons, ih sorted, List.length_cons]
        split <;> rfl

theorem length_remove (increasing : bindings.Pairwise fun a b => a.1 < b.1)
    (bound : lookup key bindings = some value) :
    (remove key bindings).length + 1 = bindings.length := by
  induction bindings with
  | nil => cases bound
  | cons first rest ih =>
    obtain ⟨above, sorted⟩ := List.pairwise_cons.mp increasing
    rw [remove] at ih ⊢
    by_cases same : first.1 = key
    · -- The keys behind it are greater, so nothing else goes.
      have kept : rest.filter (·.1 ≠ key) = rest := by
        refine List.filter_eq_self.mpr fun b member => decide_eq_true fun again => ?_
        exact List.lt_irrefl key (by simpa [same, again] using above b member)
      rw [List.filter_cons_of_neg (by simpa using same), kept, List.length_cons]
    · rw [lookup, if_neg same] at bound
      rw [List.filter_cons_of_pos (by simpa using same), List.length_cons, ih sorted bound,
        List.length_cons]

theorem distinct_keys (s : Store) : (s.bindings.map Prod.fst).Nodup := by
  refine List.pairwise_map.mpr (s.increasing.imp fun {a b} less same => ?_)
  exact List.lt_irrefl a.1 (same ▸ less)

theorem size_put (s : Store) (key value : Bytes) :
    (s.put key value).size = if s.get? key = none then s.size + 1 else s.size :=
  length_insert s.increasing

theorem size_erase (bound : s.get? key = some value) : (s.erase key).size + 1 = s.size :=
  length_remove s.increasing bound

/-! ## Calls and their answers -/

/-- A call on a store. -/
inductive Call where
  | put (key value : Bytes)
  | delete (key : Bytes)
  | get (key : Bytes)
  | size
  deriving DecidableEq, Repr

/-- The key that a call is about. -/
def Call.key? : Call → Option Bytes
  | put key _ | delete key | get key => some key
  | size => none

/-- What a call is answered with. -/
inductive Answer where
  /-- A put or a deletion took effect. -/
  | done
  | value (value : Bytes)
  | size (n : Nat)
  | fault (fault : Fault)
  deriving DecidableEq, Repr

/-- The answer to a call, and the store after it. -/
def call (s : Store) : Call → Answer × Store
  | .put key value =>
    match Storage.memory.put s key value with
    | .ok left => (.done, left)
    | .error fault => (.fault fault, s)
  | .delete key =>
    match Storage.memory.delete s key with
    | .ok left => (.done, left)
    | .error fault => (.fault fault, s)
  | .get key =>
    match Storage.memory.get s key with
    | .ok value => (.value value, s)
    | .error fault => (.fault fault, s)
  | .size => (.size s.size, s)

/-- The store after some calls. -/
def afterCalls (s : Store) (calls : List Call) : Store := calls.foldl (fun s c => (s.call c).2) s

/-- Calls on a store, each with its answer. -/
def history (s : Store) : List Call → List (Call × Answer)
  | [] => []
  | c :: calls => (c, (s.call c).1) :: history (s.call c).2 calls

/-- The call neither puts the key nor has deleted it. -/
def Spares (key : Bytes) (event : Call × Answer) : Prop :=
  (∀ value, event.1 ≠ .put key value) ∧ event ≠ (.delete key, .done)

/-- The last put of the key gives it this value, and no deletion of the key has
succeeded since. -/
def LastPut (key value : Bytes) (past : List (Call × Answer)) : Prop :=
  LastWord (fun event => event.1 = .put key value) (Spares key) past

/-! ## One call -/

theorem call_put (s : Store) (key value : Bytes) :
    s.call (.put key value) = (.done, s.put key value) := rfl

theorem call_get (s : Store) (key : Bytes) :
    s.call (.get key) = (((s.get? key).map Answer.value).getD (.fault .keyNotFound), s) := by
  simp only [call, Storage.memory]
  cases s.get? key <;> rfl

/-- A deletion takes its key out of the store, even if it fails. -/
theorem call_delete (s : Store) (key : Bytes) :
    s.call (.delete key) =
      (((s.get? key).map fun _ => .done).getD (.fault .keyNotFound), s.erase key) := by
  simp only [call, Storage.memory]
  cases bound : s.get? key with
  | none =>
    rw [erase_of_unbound bound]
    rfl
  | some value => rfl

theorem get_eq_value_iff : (s.call (.get key)).1 = .value value ↔ s.get? key = some value := by
  rw [call_get]
  cases s.get? key <;> simp

theorem get_eq_fault_iff : (s.call (.get key)).1 = .fault .keyNotFound ↔ s.get? key = none := by
  rw [call_get]
  cases s.get? key <;> simp

theorem delete_eq_done_iff :
    (s.call (.delete key)).1 = .done ↔ ∃ value, s.get? key = some value := by
  rw [call_delete]
  cases s.get? key <;> simp

theorem delete_eq_fault_iff :
    (s.call (.delete key)).1 = .fault .keyNotFound ↔ s.get? key = none := by
  rw [call_delete]
  cases s.get? key <;> simp

theorem call_of_not_done {c : Call} (undone : (s.call c).1 ≠ .done) : (s.call c).2 = s := by
  cases c with
  | put key value => exact absurd rfl undone
  | delete key =>
    cases bound : s.get? key with
    | none =>
      rw [call_delete]
      exact erase_of_unbound bound
    | some value => exact absurd (delete_eq_done_iff.mpr ⟨value, bound⟩) undone
  | get key => rw [call_get]
  | size => rfl

theorem get?_call_of_other {c : Call} (other : c.key? ≠ some key) :
    (s.call c).2.get? key = s.get? key := by
  cases c with
  | put k v =>
    have other : k ≠ key := fun same => other (congrArg some same)
    rw [call_put, get?_put, if_neg other]
  | delete k =>
    have other : k ≠ key := fun same => other (congrArg some same)
    rw [call_delete, get?_erase, if_neg other]
  | get k => rw [call_get]
  | size => rfl

/-! ## Runs of calls -/

/-- What the answer to a call says about the store after it. -/
def replayed (s : Store) : Call × Answer → Store
  | (.put key value, _) => s.put key value
  | (.delete key, .done) => s.erase key
  | _ => s

theorem call_replayed (s : Store) (c : Call) : (s.call c).2 = s.replayed (c, (s.call c).1) := by
  cases c with
  | put key value => rfl
  | delete key =>
    rw [call_delete]
    cases bound : s.get? key with
    | none => exact erase_of_unbound bound
    | some value => rfl
  | get key =>
    rw [call_get]
    rfl
  | size => rfl

/-- The past of a store tells what it has become. -/
theorem afterCalls_eq (s : Store) (calls : List Call) :
    s.afterCalls calls = (s.history calls).foldl replayed s := by
  induction calls generalizing s with
  | nil => rfl
  | cons c calls ih =>
    rw [afterCalls, List.foldl_cons, history, List.foldl_cons, ← call_replayed]
    exact ih (s.call c).2

theorem get?_replayed (s : Store) (event : Call × Answer) (key value : Bytes) :
    (s.replayed event).get? key = some value ↔
      event.1 = .put key value ∨ Spares key event ∧ s.get? key = some value := by
  obtain ⟨c, answer⟩ := event
  cases c with
  | put k v => by_cases same : k = key <;> simp [replayed, Spares, same]
  | delete k =>
    cases answer with
    | done => by_cases same : k = key <;> simp [replayed, Spares, same]
    | _ => simp [replayed, Spares]
  | get k => simp [replayed, Spares]
  | size => simp [replayed, Spares]

theorem get?_afterCalls (calls : List Call) (key value : Bytes) :
    (empty.afterCalls calls).get? key = some value ↔ LastPut key value (empty.history calls) := by
  rw [afterCalls_eq, foldl_lastWord (fun s => s.get? key = some value)
    (fun s event => get?_replayed s event key value)]
  simp [LastPut]

/-- What a store with this past lists and answers, and what one more call makes of it. -/
structure Lawful (past : List (Call × Answer)) (s : Store) : Prop where
  ordered : s.bindings.Pairwise fun a b => Bytes.Precedes a.1 b.1
  distinct : (s.bindings.map Prod.fst).Nodup
  listed : ∀ key value, (key, value) ∈ s.bindings ↔ (s.call (.get key)).1 = .value value
  counted : (s.call .size).1 = .size s.bindings.length
  isEmpty : s.isEmpty = true ↔ (s.call .size).1 = .size 0
  found : ∀ key value, (s.call (.get key)).1 = .value value ↔ LastPut key value past
  missing : ∀ key, (s.call (.get key)).1 = .fault .keyNotFound ↔ ∀ value, ¬LastPut key value past
  stored : ∀ key value, (s.call (.put key value)).1 = .done
  deleted : ∀ key, (s.call (.delete key)).1 = .done ↔ ∃ value, (s.call (.get key)).1 = .value value
  refused : ∀ key, (s.call (.delete key)).1 = .fault .keyNotFound ↔
    (s.call (.get key)).1 = .fault .keyNotFound
  /-- The key is taken out, be the deletion a success or a failure. -/
  removed : ∀ key, (s.call (.delete key)).2.bindings = remove key s.bindings
  unchanged : ∀ c, (s.call c).1 ≠ .done → (s.call c).2.bindings = s.bindings
  elsewhere : ∀ c key, c.key? ≠ some key →
    ((s.call c).2.call (.get key)).1 = (s.call (.get key)).1
  grown : ∀ key value, (s.call (.put key value)).2.size =
    if (s.call (.get key)).1 = .fault .keyNotFound then s.size + 1 else s.size
  shrunk : ∀ key, (s.call (.delete key)).1 = .done → (s.call (.delete key)).2.size + 1 = s.size

/-- Whatever calls the empty store is given, it is the map that they describe.

It lists its keys once each and in increasing order, with the values that they are found
to have, and counts them. A key is found with the value of its last put, and is missing
if it was never put or has been deleted since. A deletion succeeds if the key would be
found, and then there is one key less; a put adds one if the key would be missing. No
other call changes anything, and none changes what is found under another key. -/
theorem lawful_afterCalls (calls : List Call) :
    Lawful (empty.history calls) (empty.afterCalls calls) := by
  have past := get?_afterCalls calls
  generalize empty.afterCalls calls = s at past
  refine {
    ordered := s.increasing.imp Bytes.precedes_of_lt
    distinct := s.distinct_keys
    listed := fun key value => (mem_iff_lookup s.increasing).trans get_eq_value_iff.symm
    counted := rfl
    isEmpty := ?isEmpty
    found := fun key value => get_eq_value_iff.trans (past key value)
    missing := fun key => ?missing
    stored := fun key value => rfl
    deleted := fun key => ?deleted
    refused := fun key => delete_eq_fault_iff.trans get_eq_fault_iff.symm
    removed := fun key => ?removed
    unchanged := fun c undone => congrArg Store.bindings (call_of_not_done undone)
    elsewhere := fun c key other => ?elsewhere
    grown := fun key value => ?grown
    shrunk := fun key deleted => ?shrunk }
  case isEmpty => simp [Store.isEmpty, call]
  case missing => simp only [get_eq_fault_iff, Option.eq_none_iff_forall_ne_some, ne_eq, past]
  case deleted => simp only [delete_eq_done_iff, get_eq_value_iff]
  case removed =>
    rw [call_delete]
    rfl
  case elsewhere => rw [call_get, call_get, get?_call_of_other other]
  case grown => simp only [call_put, size_put, get_eq_fault_iff]
  case shrunk =>
    obtain ⟨value, bound⟩ := delete_eq_done_iff.mp deleted
    rw [call_delete]
    exact size_erase bound

/-- The empty key comes first, a byte above 127 last, and nothing is deleted twice. -/
example :
    let calls : List Call := [.put [255] [], .put [127, 1] [1], .put [127] [2], .put [] [3],
      .delete [127, 1], .delete [127, 1], .put [127] [4]]
    (empty.afterCalls calls).bindings = [([], [3]), ([127], [4]), ([255], [])] ∧
      (empty.history calls)[5]? = some (.delete [127, 1], .fault .keyNotFound) := by
  decide

end Store

end LogKv
