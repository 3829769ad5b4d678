import LogKv.Proofs.VerbNames

/-! What the check of a command accepts. A command passes exactly when its name, read whole,
is a verb's and it has as many parts as that verb takes; its operands are carried as they
are. Everything else is refused with one fault, the same for the same name: no name comes
first, then an unknown one, and only then a wrong number of operands. -/
namespace LogKv

namespace Request

/-- The operands that the request carries, in the order of a command. -/
def operands : Request → List Bytes
  | get key => [key]
  | set key value => [key, value]
  | del key => [key]

/-- A name that cannot be any verb's. -/
inductive Garbled (name : Bytes) : Prop where
  /-- It is no text. -/
  | noText {fault : Utf8.Fault} (broken : Utf8.decode name = .error fault)
  /-- What the cut leaves of it is no text, as where it ends inside a character. -/
  | split {fault : Utf8.Fault} (broken : Utf8.decode (name.take maxEchoedName) = .error fault)
  /-- One of its characters is several in upper case. -/
  | several {c : Char} (member : c ∈ (Utf8.lossy name).toList)
      (long : 1 < (Text.upperChar c).length)

theorem Garbled.not_spelled {name : Bytes} (garbled : Garbled name) (verb : Verb) :
    ¬verb.Spelled name := by
  intro spelled
  cases garbled with
  | noText broken =>
    obtain ⟨text, read⟩ := spelled.decode
    rw [broken] at read
    cases read
  | split broken =>
    obtain ⟨text, read⟩ := (Verb.spelled_take.mpr spelled).decode
    rw [broken] at read
    cases read
  | several member long =>
    have single := spelled.single _ member
    omega

theorem operands_length (request : Request) :
    request.operands.length + 1 = request.verb.arity := by
  cases request <;> rfl

theorem ofOperands?_eq_some_iff {verb : Verb} {operands : List Bytes} {request : Request} :
    ofOperands? verb operands = some request ↔
      request.verb = verb ∧ request.operands = operands := by
  constructor
  · intro made
    unfold ofOperands? at made
    split at made <;> cases made <;> exact ⟨rfl, rfl⟩
  · rintro ⟨rfl, rfl⟩
    cases request <;> rfl

theorem ofOperands?_eq_none_iff {verb : Verb} {operands : List Bytes} :
    ofOperands? verb operands = none ↔ operands.length + 1 ≠ verb.arity := by
  rw [← Option.not_isSome_iff_eq_none, ofOperands?_isSome_iff]

/-- All that the check can say of a command. -/
inductive Checked : Command → Except Fault Request → Prop where
  | nameless : Checked .empty (.error .noCommand)
  | unknown {name : Bytes} {operands : List Bytes} (none : ∀ verb : Verb, ¬verb.Spelled name) :
      Checked ⟨name :: operands⟩ (.error (.unknownCommand (shownName name)))
  | miscounted {name : Bytes} {operands : List Bytes} {verb : Verb} (spelled : verb.Spelled name)
      (count : operands.length + 1 ≠ verb.arity) :
      Checked ⟨name :: operands⟩ (.error (.wrongArity verb.name))
  | passed {name : Bytes} {request : Request} (spelled : request.verb.Spelled name) :
      Checked ⟨name :: request.operands⟩ (.ok request)

section Names
variable {name : Bytes} {verb : Verb}

theorem ofName?_shownName_eq_some_iff :
    Verb.ofName? (shownName name) = some verb ↔ verb.Spelled name := by
  rw [Verb.ofName?_shownName, Verb.ofName?_upper_lossy]

theorem ofName?_shownName_eq_none_iff :
    Verb.ofName? (shownName name) = none ↔ ∀ verb : Verb, ¬verb.Spelled name := by
  rw [Option.eq_none_iff_forall_ne_some]
  exact forall_congr' fun verb => not_congr ofName?_shownName_eq_some_iff

/-- A spelled verb is shown by its name. -/
theorem shownName_of_spelled (spelled : verb.Spelled name) : shownName name = verb.name :=
  (Verb.ofName?_eq_some_iff.mp (ofName?_shownName_eq_some_iff.mpr spelled)).symm

end Names

variable {c : Command} {answer : Except Fault Request}

theorem Checked.eq (checked : Checked c answer) : ofCommand c = answer := by
  cases checked with
  | nameless => rfl
  | unknown none => simp only [ofCommand, ofName?_shownName_eq_none_iff.mpr none]
  | miscounted spelled count =>
    rw [← shownName_of_spelled spelled]
    simp only [ofCommand, ofName?_shownName_eq_some_iff.mpr spelled,
      ofOperands?_eq_none_iff.mpr count]
  | passed spelled =>
    simp only [ofCommand, ofName?_shownName_eq_some_iff.mpr spelled,
      ofOperands?_eq_some_iff.mpr ⟨rfl, rfl⟩]

theorem exists_checked (c : Command) : ∃ answer, Checked c answer := by
  obtain ⟨parts⟩ := c
  cases parts with
  | nil => exact ⟨_, .nameless⟩
  | cons name operands =>
    by_cases known : ∃ verb : Verb, verb.Spelled name
    · obtain ⟨verb, spelled⟩ := known
      cases made : ofOperands? verb operands with
      | none => exact ⟨_, .miscounted spelled (ofOperands?_eq_none_iff.mp made)⟩
      | some request =>
        obtain ⟨rfl, rfl⟩ := ofOperands?_eq_some_iff.mp made
        exact ⟨_, .passed spelled⟩
    · exact ⟨_, .unknown (not_exists.mp known)⟩

theorem ofCommand_eq_iff : ofCommand c = answer ↔ Checked c answer := by
  refine ⟨fun same => ?_, Checked.eq⟩
  obtain ⟨other, checked⟩ := exists_checked c
  rwa [← same, checked.eq]

/-- A request is made of parts of its command. -/
theorem operand_mem {request : Request} (valid : ofCommand c = .ok request) :
    ∀ part ∈ request.operands, part ∈ c.parts := by
  cases ofCommand_eq_iff.mp valid with
  | passed spelled => exact fun part member => List.mem_cons_of_mem _ member

/-- The verb of a command's whole name is the one that its first part spells. -/
theorem name?_bind_ofName?_eq_some_iff {name : Bytes} {operands : List Bytes} {verb : Verb} :
    (Command.name? ⟨name :: operands⟩).bind Verb.ofName? = some verb ↔ verb.Spelled name :=
  Verb.ofName?_upper_lossy

theorem ofCommand_request_iff (c : Command) (request : Request) :
    ofCommand c = .ok request ↔
      c.name?.bind Verb.ofName? = some request.verb ∧ c.parts.tail = request.operands := by
  rw [ofCommand_eq_iff]
  constructor
  · rintro (_ | _ | _ | ⟨spelled⟩)
    exact ⟨name?_bind_ofName?_eq_some_iff.mpr spelled, rfl⟩
  · obtain ⟨parts⟩ := c
    rintro ⟨named, rest⟩
    cases parts with
    | nil => cases named
    | cons name operands =>
      rw [List.tail_cons] at rest
      exact rest ▸ .passed (name?_bind_ofName?_eq_some_iff.mp named)

theorem ofCommand_passes_iff (c : Command) :
    (∃ request, ofCommand c = .ok request) ↔
      ∃ verb, c.name?.bind Verb.ofName? = some verb ∧ verb.arity = c.parts.length := by
  simp only [ofCommand_request_iff]
  obtain ⟨parts⟩ := c
  cases parts with
  | nil => simp [Command.name?]
  | cons name operands =>
    constructor
    · rintro ⟨request, named, rest⟩
      refine ⟨request.verb, named, ?_⟩
      rw [← request.operands_length, ← rest, List.tail_cons, List.length_cons]
    · rintro ⟨verb, named, count⟩
      obtain ⟨request, made⟩ :=
        Option.isSome_iff_exists.mp (ofOperands?_isSome_iff.mpr count.symm)
      obtain ⟨rfl, rfl⟩ := ofOperands?_eq_some_iff.mp made
      exact ⟨request, named, rfl⟩

/-- The check of a command accepts exactly the verbs, and the cut of a name decides nothing.

A command passes exactly when its whole name, in upper case, is a verb's name and it has as many
parts as the verb takes. The request is of that verb and carries the other parts as they are.
The names that are some verb's are the spellings of the verbs, whatever the command holds
besides. A command with no part has no name, a name that spells no verb is unknown whatever
the operands, among them all that are no text, that the cut splits, or that grow in upper
case, and only after a verb is found is the number of the parts looked at. -/
theorem ofCommand_accepts_exactly_verbs :
    (∀ c, (∃ request, ofCommand c = .ok request) ↔
      ∃ verb, c.name?.bind Verb.ofName? = some verb ∧ verb.arity = c.parts.length) ∧
    (∀ c request, ofCommand c = .ok request ↔
      c.name?.bind Verb.ofName? = some request.verb ∧ c.parts.tail = request.operands) ∧
    (∀ name, Verb.ofName? (shownName name) = Verb.ofName? (Text.upper (Utf8.lossy name))) ∧
    (∀ name operands verb,
      (Command.name? ⟨name :: operands⟩).bind Verb.ofName? = some verb ↔ verb.Spelled name) ∧
    ofCommand .empty = .error .noCommand ∧
    (∀ name operands, (∀ verb : Verb, ¬verb.Spelled name) →
      ofCommand ⟨name :: operands⟩ = .error (.unknownCommand (shownName name))) ∧
    (∀ name operands, Garbled name →
      ofCommand ⟨name :: operands⟩ = .error (.unknownCommand (shownName name))) ∧
    ∀ name operands (verb : Verb), verb.Spelled name → operands.length + 1 ≠ verb.arity →
      ofCommand ⟨name :: operands⟩ = .error (.wrongArity verb.name) :=
  ⟨ofCommand_passes_iff, ofCommand_request_iff, Verb.ofName?_shownName,
    fun _ _ _ => name?_bind_ofName?_eq_some_iff, rfl,
    fun _ _ none => Checked.eq (.unknown none),
    fun _ _ garbled => Checked.eq (.unknown garbled.not_spelled),
    fun _ _ _ spelled count => Checked.eq (.miscounted spelled count)⟩

/-- SET with a long s, a name with a byte that is no text, one whose last character the cut splits,
one that grows in upper case, a word that is no verb, and a verb with an operand too many. -/
theorem ofCommand_accepts_exactly_verbs_samples :
    let long : Bytes := List.replicate 127 65 ++ Utf8.encode "é"
    Verb.set.Spelled (Utf8.encode "ſeT") ∧
      ofCommand ⟨[Utf8.encode "ſeT", [0], [255]]⟩ = .ok (.set [0] [255]) ∧
      ofCommand ⟨[[255]]⟩ = .error (.unknownCommand "\uFFFD") ∧
      Garbled long ∧ ofCommand ⟨[long, [0]]⟩ = .error (.unknownCommand (shownName long)) ∧
      ofCommand ⟨[Utf8.encode "ŉ", [0]]⟩ = .error (.unknownCommand "ʼN") ∧
      ofCommand ⟨[Utf8.encode "gets", [0]]⟩ = .error (.unknownCommand "GETS") ∧
      ofCommand ⟨[Utf8.encode "gEt", [0], [1]]⟩ = .error (.wrongArity "GET") := by
  intro long
  obtain ⟨-, accepts, -, spells, -, unknown, garbled, miscounted⟩ :=
    ofCommand_accepts_exactly_verbs
  have odd : Verb.set.Spelled (Utf8.encode "ſeT") := by decide
  have noText : Garbled [255] :=
    .noText (show Utf8.decode [255] = .error (.broken 1 0) by decide +kernel)
  have split : Garbled long :=
    .split (show Utf8.decode (long.take 128) = .error (.unfinished 127) by decide +kernel)
  have grows : Garbled (Utf8.encode "ŉ") :=
    .several (show 'ŉ' ∈ (Utf8.lossy (Utf8.encode "ŉ")).toList by decide +kernel)
      (by decide +kernel)
  have word : ∀ verb : Verb, ¬verb.Spelled (Utf8.encode "gets") := by
    intro verb
    cases verb <;> decide
  have broken : shownName [255] = "\uFFFD" := by decide +kernel
  have grown : shownName (Utf8.encode "ŉ") = "ʼN" := by decide +kernel
  have capitals : shownName (Utf8.encode "gets") = "GETS" := by decide +kernel
  refine ⟨odd, (accepts _ _).mpr ⟨(spells _ _ _).mpr odd, rfl⟩, broken ▸ garbled _ [] noText,
    split, garbled _ _ split, grown ▸ garbled _ _ grows, capitals ▸ unknown _ _ word,
    miscounted _ _ .get ?_ ?_⟩
  · decide
  · decide

end Request

end LogKv
