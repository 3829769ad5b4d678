import Mathlib.Data.List.FinRange
import Mathlib.Data.List.Sort
import Mathlib.Data.Fin.VecNotation
import LogKv.Proofs.LogReplay

/-! Writes to different keys do not depend on each other. What a log leaves of a key,
and what it answers to an entry on that key, is decided by its entries on the key and
their order. So frames may change places as long as the entries on each key keep their
order: every frame gets the response it got before, and the store ends up the same. -/
namespace LogKv.KeyValue

/-! ## What a log is to one key -/

/-- The key of the entry in a frame, if there is an entry in it. -/
def key? (frame : Bytes) : Option Bytes :=
  match Entry.decode frame with
  | .ok entry => some entry.key
  | .error _ => none

variable {s t : Store} {key frame : Bytes}

theorem key?_of_decode {entry : Entry} (read : Entry.decode frame = .ok entry) :
    key? frame = some entry.key := by
  rw [key?, read]

theorem spares_iff : Spares key frame ↔ key? frame ≠ some key := by
  cases read : Entry.decode frame with
  | error fault => simp [Spares, key?, read]
  | ok entry => simp [Spares, key?, read]

theorem respond_spared (other : key? frame ≠ some key) :
    (respond .memory s frame).2.get? key = s.get? key := by
  have unread (value : Bytes) : Entry.decode frame ≠ .ok (.put key value) :=
    fun read => other (key?_of_decode read)
  ext value
  simp [get?_respond, unread, spares_iff.mpr other]

theorem respond_agrees (agree : s.get? key = t.get? key) :
    (respond .memory s frame).2.get? key = (respond .memory t frame).2.get? key := by
  ext value
  simp only [get?_respond, agree]

/-- The response to a frame depends on the store at the key of its entry only. -/
theorem response_agrees (agree : ∀ key, key? frame = some key → s.get? key = t.get? key) :
    (respond .memory s frame).1 = (respond .memory t frame).1 := by
  cases read : Entry.decode frame with
  | error fault => simp only [respond, report_of_fault .memory read]
  | ok entry =>
    have same := agree entry.key (key?_of_decode read)
    simp only [respond, report_of_entry read]
    cases entry with
    | put => rfl
    | delete =>
      simp only [Entry.key] at same
      simp only [Entry.outcome, same]

/-- What a log leaves of a key is what its entries on the key leave of it. -/
theorem get?_replay_filter (agree : s.get? key = t.get? key) (frames : List Bytes) :
    (replay s frames).2.get? key =
      (replay t (frames.filter (key? · = some key))).2.get? key := by
  induction frames generalizing s t with
  | nil => exact agree
  | cons frame frames ih =>
    by_cases here : key? frame = some key
    · rw [List.filter_cons_of_pos (by simpa using here)]
      exact ih (respond_agrees agree)
    · rw [List.filter_cons_of_neg (by simpa using here)]
      exact ih ((respond_spared here).trans agree)

theorem getElem?_replay (s : Store) (before after : List Bytes) (frame : Bytes) :
    (replay s (before ++ frame :: after)).1[before.length]? =
      some (respond .memory (replay s before).2 frame).1 := by
  have length := replay_length s before
  rw [replay_append, List.getElem?_append_right (by omega), length, Nat.sub_self]
  rfl

/-! ## Orders of frames -/

section Orders
variable {ι : Type} {order other : List ι} {i : ι} {k l : Nat}

theorem split_at (here : order[k]? = some i) :
    order = order.take k ++ i :: order.drop (k + 1) := by
  obtain ⟨inside, rfl⟩ := List.getElem?_eq_some_iff.mp here
  rw [List.getElem_cons_drop, List.take_append_drop]

/-- Orders that agree on some items agree on those before any one of them. -/
theorem filter_take {among : ι → Bool} (nodup : order.Nodup)
    (agree : order.filter among = other.filter among) (member : among i = true)
    (here : order[k]? = some i) (there : other[l]? = some i) :
    (order.take k).filter among = (other.take l).filter among := by
  have once := nodup.filter among
  rw [split_at here, List.filter_append, List.filter_cons_of_pos member] at once agree
  rw [split_at there, List.filter_append, List.filter_cons_of_pos member] at agree
  have absent := (List.nodup_cons.mp (List.nodup_middle.mp once)).1
  rw [List.mem_append, not_or] at absent
  exact ((List.append_cons_inj_of_notMem absent.1 absent.2).mp agree).1

/-- Items that are moved without overtaking each other stay in order. -/
theorem filter_moved {n : Nat} (place : Equiv.Perm (Fin n)) (among : Fin n → Bool)
    (kept : ∀ i j, i < j → among i = true → among j = true → place i < place j) :
    ((List.finRange n).map place.symm).filter among = (List.finRange n).filter among := by
  have sorted := (List.sortedLT_finRange n).pairwise
  apply List.Pairwise.eq_of_mem_iff (r := (· < ·))
  · rw [List.pairwise_filter, List.pairwise_map]
    refine sorted.imp fun {p q} before first second => ?_
    rcases lt_trichotomy (place.symm p) (place.symm q) with inOrder | same | overtaken
    · exact inOrder
    · exact absurd (place.symm.injective same) before.ne
    · have after := kept _ _ overtaken second first
      rw [Equiv.apply_symm_apply, Equiv.apply_symm_apply] at after
      exact absurd after before.asymm
  · exact sorted.filter among
  · intro i
    have moved : ∃ p, place.symm p = i := ⟨place i, place.symm_apply_apply i⟩
    simp [moved]

/-- A log in which frames are taken in this order. -/
theorem response_at (frames : ι → Bytes) (s : Store) (here : order[k]? = some i) :
    (replay s (order.map frames)).1[k]? =
      some (respond .memory (replay s ((order.take k).map frames)).2 (frames i)).1 := by
  have size : ((order.take k).map frames).length = k := by
    have inside := (List.getElem?_eq_some_iff.mp here).1
    simp
    omega
  conv_lhs => rw [split_at here, List.map_append, List.map_cons]
  have response := getElem?_replay s ((order.take k).map frames)
    ((order.drop (k + 1)).map frames) (frames i)
  rwa [size] at response

end Orders

/-! ## Reordered logs -/

/-- Both frames are entries on the same key. -/
def SameKey (frame other : Bytes) : Prop := ∃ key, key? frame = some key ∧ key? other = some key

instance (frame other : Bytes) : Decidable (SameKey frame other) :=
  decidable_of_iff (key? frame ≠ none ∧ key? other = key? frame) <| by
    cases here : key? frame <;> simp [SameKey, here]

/-- The item stands for an entry on this key. -/
def concerns {ι : Type} (frames : ι → Bytes) (key : Bytes) (i : ι) : Bool :=
  key? (frames i) = some key

/-- Orders that agree on the entries on a key leave the same of the key. -/
theorem get?_replay_orders {ι : Type} {order other : List ι} {frames : ι → Bytes} {key : Bytes}
    (s : Store)
    (agree : order.filter (concerns frames key) = other.filter (concerns frames key)) :
    (replay s (order.map frames)).2.get? key = (replay s (other.map frames)).2.get? key := by
  have words (items : List ι) : (items.map frames).filter (key? · = some key) =
      (items.filter (concerns frames key)).map frames := List.filter_map ..
  rw [get?_replay_filter rfl (order.map frames), get?_replay_filter rfl (other.map frames),
    words, words, agree]

/-- Writes to different keys may change places.

Let every frame of a log go to some place, so that the entries on each key stay in order;
frames that hold no entry may go anywhere. Then the log leaves the same store as before,
whatever store it starts from, and every frame gets the same response, byte for byte. -/
theorem writes_to_keys_independent (s : Store) (frames : List Bytes)
    (place : Equiv.Perm (Fin frames.length))
    (kept : ∀ i j, i < j → SameKey frames[i] frames[j] → place i < place j) :
    let moved := List.ofFn fun p => frames[place.symm p]
    (replay s moved).2 = (replay s frames).2 ∧
    ∀ i, ∃ response, (replay s frames).1[i]? = some response ∧
      (replay s moved).1[place i]? = some response := by
  intro moved
  let order := List.finRange frames.length
  let other := order.map place.symm
  have original : order.map frames.get = frames := List.map_get_finRange frames
  have reordered : moved = other.map frames.get := by
    simp only [moved, other, order, List.ofFn_eq_map, List.map_map]
    rfl
  have agree (key : Bytes) :
      other.filter (concerns frames.get key) = order.filter (concerns frames.get key) := by
    refine filter_moved place _ fun i j before first second => kept i j before ⟨key, ?_, ?_⟩
    · simpa [concerns] using first
    · simpa [concerns] using second
  have nodup : other.Nodup := (List.nodup_finRange _).map place.symm.injective
  rw [reordered]
  refine ⟨Store.ext_get? fun key => ?_, fun i => ?_⟩
  · have same := get?_replay_orders s (agree key)
    rwa [original] at same
  · have here : order[i]? = some i := by simp [order]
    have there : other[place i]? = some i := by simp [other, order]
    have response := response_at frames.get s here
    rw [original] at response
    refine ⟨_, response, (response_at _ s there).trans (congrArg some ?_)⟩
    -- Before the frame, both orders have the same entries on its key.
    refine response_agrees fun key concerned => get?_replay_orders s ?_
    exact filter_take nodup (agree key) (by simpa [concerns] using concerned) there here

/-- Two keys are put and deleted, with bytes between them that are no frame. The writes to one
key overtake those to the other, and the bytes go to the end. -/
theorem writes_to_keys_independent_interleaved :
    let putK := (Entry.put [107] [1]).encode
    let putL := (Entry.put [108] [2]).encode
    let deleteK := (Entry.delete [107]).encode
    let deleteL := (Entry.delete [108]).encode
    let frames := [putK, [0, 255], putL, deleteK, deleteL]
    let place : Equiv.Perm (Fin 5) :=
      ⟨![1, 4, 0, 3, 2], ![2, 0, 4, 3, 1], fun i => by decide +revert, fun i => by decide +revert⟩
    let moved := [putL, putK, deleteL, deleteK, [0, 255]]
    (∀ i j : Fin 5, i < j → SameKey frames[i] frames[j] → place i < place j) ∧
    (replay .empty moved).2 = (replay .empty frames).2 ∧
    ∃ response, (replay .empty frames).1[4]? = some response ∧
      (replay .empty moved).1[2]? = some response := by
  intro putK putL deleteK deleteL frames place moved
  have kept : ∀ i j : Fin 5, i < j → SameKey frames[i] frames[j] → place i < place j := by
    decide +kernel
  obtain ⟨store, responses⟩ := writes_to_keys_independent .empty frames place kept
  have response := responses (4 : Fin 5)
  have reordered : (List.ofFn fun p : Fin 5 => frames[place.symm p]) = moved := by
    clear_value putK putL deleteK deleteL
    rfl
  rw [← reordered]
  exact ⟨kept, store, response⟩

end LogKv.KeyValue
