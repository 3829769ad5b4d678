import LogKv.Proofs.LastWords
import LogKv.Proofs.ReadableReports

/-! Replaying a log over a store in memory. Frames of entries and bytes that are no
frames may follow each other in any order. In the end the last entry on a key decides
what the key is bound to, and every response says what became of its own frame: it
took effect, it found nothing to delete, or it could not be read. Only a frame that
took effect has changed anything. -/
namespace LogKv

/-- The key that an entry is about. -/
def Entry.key : Entry → Bytes
  | put key _ | delete key => key

namespace KeyValue

/-- The responses of the state machine to these frames, in order, and the store after them. -/
def replay (s : Store) : List Bytes → List Bytes × Store
  | [] => ([], s)
  | frame :: rest =>
    let (response, s) := respond .memory s frame
    let (responses, s) := replay s rest
    (response :: responses, s)

/-! ## What a log says about a key -/

/-- The frame is not that of an entry on this key. -/
def Spares (key frame : Bytes) : Prop :=
  ∀ entry, Entry.decode frame = .ok entry → entry.key ≠ key

/-- The last of these frames that is an entry on this key puts this value. -/
def LastPut (key value : Bytes) (frames : List Bytes) : Prop :=
  LastWord (fun frame => Entry.decode frame = .ok (.put key value)) (Spares key) frames

/-- What the response to a frame says, by the store that the frame was applied to. -/
structure Tells (found : Store) (frame response : Bytes) : Prop where
  readable : ∃ outcome, Outcome.decode response = .ok outcome
  applied : Outcome.resultOf response = .ok none ↔
    (∃ key value, Entry.decode frame = .ok (.put key value)) ∨
      ∃ key, Entry.decode frame = .ok (.delete key) ∧ ∃ value, found.get? key = some value
  missing : Outcome.resultOf response = .error .keyNotFound ↔
    ∃ key, Entry.decode frame = .ok (.delete key) ∧ found.get? key = none
  rejected : ∀ reason, Outcome.resultOf response = .error (.rejected reason) ↔
    ∃ fault, Entry.decode frame = .error fault ∧ reason = fault.toFault.message
  /-- A record that is carried out is a put with a value or a delete without one, ... -/
  isEntry : ∀ r, Entry.recordIn frame = .ok r → r.IsEntry
  /-- ... so that none is refused for want of a value, ... -/
  carried : ∀ r, Entry.recordIn frame = .ok r → write .memory found r ≠ .error valueless
  /-- ... and nobody is told that one was. -/
  untold : Outcome.resultOf response ≠ .error (.rejected valueless.message)

variable {s : Store} {key value frame : Bytes} {frames : List Bytes}

/-! ## One frame -/

theorem report_addressable (s : Store) (frame : Bytes) :
    (report .memory s frame).1.Addressable := by
  cases read : Entry.decode frame with
  | error fault =>
    rw [report_of_fault .memory read]
    exact Entry.decode_fault_addressable read
  | ok entry =>
    rw [report_of_entry read]
    cases entry with
    | put key value => simp [Entry.outcome, Outcome.Addressable]
    | delete key =>
      simp only [Entry.outcome]
      split
      · simp [Outcome.Addressable]
      · trivial

theorem resultOf_respond (s : Store) (frame : Bytes) :
    Outcome.resultOf (respond .memory s frame).1 = (report .memory s frame).1.result :=
  Outcome.resultOf_encode (report_addressable s frame)

/-- Only a record that is no entry is refused for want of a value. -/
theorem write_ne_valueless (s : Store) {r : Record} (isEntry : r.IsEntry) :
    write .memory s r ≠ .error valueless := by
  obtain ⟨entry, rfl⟩ := Entry.isEntry_iff.mp isEntry
  cases entry with
  | put key value => exact nofun
  | delete key =>
    simp only [write, Entry.record, Storage.memory, valueless]
    split <;> simp

/-- What is read passed the check, which lets no record through that is no entry. -/
theorem isEntry_of_recordIn {r : Record} (read : Entry.recordIn frame = .ok r) : r.IsEntry := by
  rw [Entry.recordIn, Entry.recordWith] at read
  split at read
  · cases read
  · split at read
    · cases read
    · next found rest taken =>
      obtain ⟨operation, key, value⟩ := found
      cases operation <;> cases value <;> cases read <;> simp [Record.IsEntry]

/-- The reason for refusing an unreadable frame speaks of reading. -/
theorem refusal_ne (fault : Entry.Fault) : valueless.message ≠ fault.toFault.message := by
  intro same
  have reading : "Serialization error: ".toList.head? = some 'S' := by decide
  have first := Text.head?_append reading fault.message
  have message : fault.toFault.message = "Serialization error: " ++ fault.message := rfl
  rw [← message, ← same] at first
  cases first

theorem tells_of_result {found : Store} {response : Bytes}
    (readable : ∃ outcome, Outcome.decode response = .ok outcome)
    (verdict : Outcome.resultOf response = (report .memory found frame).1.result) :
    Tells found frame response := by
  have isEntry (r : Record) (read : Entry.recordIn frame = .ok r) : r.IsEntry :=
    isEntry_of_recordIn read
  have carried (r : Record) (read : Entry.recordIn frame = .ok r) :
      write .memory found r ≠ .error valueless := write_ne_valueless found (isEntry r read)
  cases read : Entry.decode frame with
  | error fault =>
    have refused : Outcome.resultOf response = .error (.rejected fault.toFault.message) := by
      rw [verdict, report_of_fault .memory read]
      rfl
    refine ⟨readable, by simp [refused, read], by simp [refused, read], fun reason => ?_, isEntry,
      carried, ?_⟩
    · simp [refused, read, eq_comm]
    · rw [refused]
      intro same
      exact refusal_ne fault (Fault.rejected.inj (Except.error.inj same)).symm
  | ok entry =>
    rw [report_of_entry read] at verdict
    cases entry with
    | put key value =>
      have done : Outcome.resultOf response = .ok none := verdict
      exact ⟨readable, by simp [done, read], by simp [done, read], by simp [done, read], isEntry,
        carried, by simp [done]⟩
    | delete key =>
      cases bound : found.get? key with
      | none =>
        have absent : Outcome.resultOf response = .error .keyNotFound := by
          simp [verdict, Entry.outcome, bound, Outcome.result]
        exact ⟨readable, by simp [absent, read, bound], by simp [absent, read, bound],
          by simp [absent, read], isEntry, carried, by simp [absent]⟩
      | some value =>
        have done : Outcome.resultOf response = .ok none := by
          simp [verdict, Entry.outcome, bound, Outcome.result]
        exact ⟨readable, by simp [done, read, bound], by simp [done, read, bound],
          by simp [done, read], isEntry, carried, by simp [done]⟩

theorem tells_respond (s : Store) (frame : Bytes) : Tells s frame (respond .memory s frame).1 :=
  tells_of_result ⟨_, Outcome.decode_encode (report_addressable s frame)⟩ (resultOf_respond s frame)

/-- A frame binds its key to its value or unbinds it, and spares all other keys. -/
theorem get?_respond (s : Store) (frame key value : Bytes) :
    (respond .memory s frame).2.get? key = some value ↔
      Entry.decode frame = .ok (.put key value) ∨
        Spares key frame ∧ s.get? key = some value := by
  cases read : Entry.decode frame with
  | error fault =>
    have same : (respond .memory s frame).2 = s := by rw [respond, report_of_fault .memory read]
    simp [same, read, Spares]
  | ok entry =>
    have left : (respond .memory s frame).2 = entry.effect s := by
      rw [respond, report_of_entry read]
    rw [left]
    cases entry with
    | put k v =>
      by_cases same : k = key
      · simp [Entry.effect, read, Spares, Entry.key, same]
      · simp [Entry.effect, read, Spares, Entry.key, same]
    | delete k =>
      by_cases same : k = key
      · simp [Entry.effect, read, Spares, Entry.key, same]
      · simp [Entry.effect, read, Spares, Entry.key, same]

theorem respond_unchanged {s : Store} {frame : Bytes}
    (undone : Outcome.resultOf (respond .memory s frame).1 ≠ .ok none) :
    (respond .memory s frame).2 = s := by
  rw [resultOf_respond] at undone
  cases read : Entry.decode frame with
  | error fault => rw [respond, report_of_fault .memory read]
  | ok entry =>
    rw [report_of_entry read] at undone
    rw [respond, report_of_entry read]
    cases entry with
    | put key value => exact absurd rfl undone
    | delete key =>
      cases bound : s.get? key with
      | none => exact Store.erase_of_unbound bound
      | some value => simp [Entry.outcome, bound, Outcome.result] at undone

/-! ## Whole logs -/

theorem replay_append (s : Store) (earlier later : List Bytes) :
    replay s (earlier ++ later) =
      ((replay s earlier).1 ++ (replay (replay s earlier).2 later).1,
        (replay (replay s earlier).2 later).2) := by
  induction earlier generalizing s with
  | nil => rfl
  | cons frame earlier ih => simp only [List.cons_append, replay, ih]

theorem replay_length (s : Store) (frames : List Bytes) :
    (replay s frames).1.length = frames.length := by
  induction frames generalizing s with
  | nil => rfl
  | cons frame frames ih => simp only [replay, List.length_cons, ih]

theorem replay_snd (s : Store) (frames : List Bytes) :
    (replay s frames).2 = frames.foldl (fun s frame => (respond .memory s frame).2) s := by
  induction frames generalizing s with
  | nil => rfl
  | cons frame frames ih => exact ih (respond .memory s frame).2

theorem get?_replay (s : Store) (frames : List Bytes) (key value : Bytes) :
    (replay s frames).2.get? key = some value ↔
      LastPut key value frames ∨
        (∀ frame ∈ frames, Spares key frame) ∧ s.get? key = some value := by
  rw [replay_snd]
  exact foldl_lastWord (fun s => s.get? key = some value)
    (fun s frame => get?_respond s frame key value) s frames

/-- In a replayed log the last write to a key wins, and a failure changes nothing.

After any list of byte strings a key is bound to a value exactly if the last of them that
is an entry on the key puts that value, or if none is an entry on the key and it was bound
to the value at the start. Every byte string gets a response that can be read. It says
that the entry took effect if it is a put or deletes a key that is bound at that moment,
that there was no such key if it deletes another one, and why the byte string could not
be read if it could not. Unless the entry took effect, the store stays as it was. The
refusal of a put for want of a value is never reached, since no byte string is read as
such a put. -/
theorem last_write_wins (s : Store) (frames : List Bytes) :
    (∀ key value, (replay s frames).2.get? key = some value ↔
      LastPut key value frames ∨
        (∀ frame ∈ frames, Spares key frame) ∧ s.get? key = some value) ∧
    (replay s frames).1.length = frames.length ∧
    ∀ before frame after, frames = before ++ frame :: after →
      let found := (replay s before).2
      ∃ response, (replay s frames).1[before.length]? = some response ∧
        Tells found frame response ∧
        (Outcome.resultOf response ≠ .ok none → (replay s (before ++ [frame])).2 = found) := by
  refine ⟨get?_replay s frames, replay_length s frames, ?_⟩
  rintro before frame after rfl found
  refine ⟨(respond .memory found frame).1, ?_, tells_respond found frame, fun undone => ?_⟩
  · have length := replay_length s before
    rw [replay_append, List.getElem?_append_right (by omega), length, Nat.sub_self]
    rfl
  · rw [replay_append]
    exact respond_unchanged undone

/-- A key is put twice, and nothing comes of the frames behind: a put that lays out no value,
which would be refused as such if it were not refused by the reader, and the deletion of another
key. -/
theorem last_write_wins_mixed :
    let put := (Entry.put [107] [0, 255]).encode
    let unbacked : Record := ⟨.put, [107], none⟩
    let bare := Entry.frameOf unbacked
    let other := (Entry.delete [108]).encode
    let frames := [(Entry.put [107] [1]).encode, put, bare, other]
    (replay .empty frames).2.get? [107] = some [0, 255] ∧
    frames = frames.take 2 ++ bare :: [other] ∧
    write .memory (replay .empty (frames.take 2)).2 unbacked = .error valueless ∧
    Entry.recordIn bare ≠ .ok unbacked ∧
    ∃ response, (replay .empty frames).1[2]? = some response ∧
      Outcome.resultOf response =
        .error (.rejected "Serialization error: Put entry without a value") ∧
      (replay .empty (frames.take 3)).2 = (replay .empty (frames.take 2)).2 := by
  intro put unbacked bare other frames
  obtain ⟨bound, -, responses⟩ := last_write_wins .empty frames
  have readPut : Entry.decode put = .ok (.put [107] [0, 255]) := by decide +kernel
  have readBare : Entry.decode bare = .error .putWithoutValue := by decide +kernel
  have readOther : Entry.decode other = .ok (.delete [108]) := by decide +kernel
  obtain ⟨response, here, tells, unchanged⟩ := responses (frames.take 2) bare [other] rfl
  refine ⟨(bound _ _).mpr (.inl ⟨[_], put, [bare, other], rfl, readPut, ?_⟩), rfl, rfl,
    fun read => tells.carried unbacked read rfl, ?_⟩
  · intro frame member entry read
    rcases List.mem_pair.mp member with rfl | rfl
    · rw [readBare] at read
      cases read
    · rw [readOther] at read
      cases read
      decide
  · have refused := (tells.rejected _).mpr ⟨.putWithoutValue, readBare, rfl⟩
    refine ⟨response, here, refused.trans (by decide), unchanged ?_⟩
    rw [refused]
    simp

end KeyValue

end LogKv
