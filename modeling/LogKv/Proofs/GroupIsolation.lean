import Mathlib.Data.List.Basic
import LogKv.Cluster
import LogKv.Proofs.MapRefinement
import LogKv.Proofs.Observations

/-! Nodes of a group meet in their address books only. Whatever is done to the nodes of
a group, in whatever order and with whatever timing, each node replies and ends up as it
would alone, with the steps that were taken on it and with the registrations in the book
it looks into. Following another node is no exception: what is copied is the other's name
and address, which the settings fix. -/
namespace LogKv

/-- The leader pointer that names a node with these settings. -/
def Config.pointer (config : Config) : Leader := ⟨config.nodeId, config.peerAddress⟩

/-- What a step is for a node that is alone: it becomes follower of a name and an address where it
would follow another node. -/
def Step.alone (configs : List Config) : Step → Step
  | .follow other =>
    match configs[other]? with
    | some config => .becomeFollower (some config.pointer)
    | none => .follow other
  | step => step

namespace Cluster

/-! ## What happens in a group -/

/-- Something that happens in a group. -/
inductive Event where
  /-- A step is taken on the node of that number. -/
  | on (number : Nat) (step : Step)
  /-- Time passes at a node, and its worker does whatever it does in the meantime. -/
  | pass (number : Nat) (progress : Clocked Store → Clocked Store)
  /-- A client address is recorded in the book of that number, and no node takes part. -/
  | register (book : Nat) (id address : String)

/-- The group after the node of that number has changed. -/
def update (number : Nat) (change : Node → Node) (c : Cluster) : Cluster :=
  { c with members := c.members.modify number fun member =>
      { member with node := change member.node } }

/-- The group after the book of that number has changed. -/
def amend (book : Nat) (change : AddressBook → AddressBook) (c : Cluster) : Cluster :=
  { c with books := c.books.modify book change }

/-- What is seen when something happens, with the number of the node where it is seen, and the group
afterwards. Nothing happens at a node that is not there. -/
def happen (c : Cluster) : Event → List (Nat × Seen) × Cluster
  | .on number step =>
    match c.perform number step with
    | some (seen, c) => ([(number, seen)], c)
    | none => ([], c)
  | .pass number progress =>
    ([], c.update number fun node => { node with log := progress node.log })
  | .register book id address => ([], c.amend book (·.register id address))

/-- The node of that number, and the book that it looks into. -/
def place (c : Cluster) (number : Nat) : Option (Node × AddressBook) :=
  c.members[number]?.map fun member => (member.node, c.bookOf member)

/-! ## What is left of it for one node -/

/-- The number of the book that a node looks into. -/
def home (shared : Bool) (number : Nat) : Nat := if shared then 0 else number

@[simp]
theorem home_zero (shared : Bool) : home shared 0 = 0 := by
  cases shared <;> rfl

/-- What an event in a group is for one node alone: a step on it is the same step, a registration in
its book is one in the only book there is, and the rest is nothing. -/
def Event.alone (shared : Bool) (configs : List Config) (i : Nat) : Event → List Event
  | .on number step =>
    if number = i then [.on 0 (step.alone configs)]
    else
      match step with
      | .register id address =>
        if number < configs.length ∧ home shared number = home shared i then
          [.register 0 id address]
        else []
      | _ => []
  | .pass number progress => if number = i then [.pass 0 progress] else []
  | .register book id address => if book = home shared i then [.register 0 id address] else []

/-! ## Changes in one place -/

variable {shared : Bool} {configs : List Config} {config : Config} {c : Cluster} {i number : Nat}

theorem place_update (number : Nat) (change : Node → Node) (c : Cluster) (i : Nat) :
    (c.update number change).place i =
      (c.place i).map fun (node, book) => (if number = i then change node else node, book) := by
  simp only [place, update, List.getElem?_modify, Option.map_eq_map, Option.map_map]
  congr 1
  funext member
  by_cases same : number = i <;> simp [same, bookOf]

theorem perform_eq {member : Member} (there : c.members[number]? = some member) (step : Step) :
    c.perform number step =
      let (seen, node) :=
        onNode (c.bookOf member) (c.members.map (·.node.self)) member.node step
      some (seen, (c.update number fun _ => node).amend member.book (onBook · step)) := by
  simp [perform, there, update, amend, List.modify_eq_set_getElem?]

/-- No step changes the settings of a node. -/
theorem onNode_config (book : AddressBook) (selves : List Leader) (node : Node) (step : Step) :
    (onNode book selves node step).2.config = node.config := by
  cases step with
  | follow other =>
    simp only [onNode]
    cases selves[other]? <;> rfl
  | submit timeout data =>
    simp only [onNode, Node.submit]
    split <;> rfl
  | _ => rfl

theorem onBook_of_not_register {step : Step} (silent : ∀ id address, step ≠ .register id address)
    (book : AddressBook) : onBook book step = book := by
  cases step with
  | register id address => exact absurd rfl (silent id address)
  | _ => rfl

/-! ## Groups that were opened -/

/-- A group has a node for each of these settings, and the books that the nodes look into. -/
structure Opened (shared : Bool) (configs : List Config) (c : Cluster) : Prop where
  members : ∀ number : Nat,
    c.members[number]?.map (fun member => (member.node.config, member.book)) =
      configs[number]?.map fun config => (config, home shared number)
  books : ∀ number < configs.length, home shared number < c.books.length

theorem Opened.inside (opened : Opened shared configs c) {member : Member}
    (there : c.members[number]? = some member) :
    number < configs.length ∧ member.book = home shared number := by
  have named := opened.members number
  rw [there] at named
  obtain ⟨config, found, same⟩ := Option.map_eq_some_iff.mp named.symm
  exact ⟨(List.getElem?_eq_some_iff.mp found).1, (congrArg Prod.snd same).symm⟩

theorem Opened.missing (opened : Opened shared configs c) (missing : c.members[number]? = none) :
    ¬number < configs.length := by
  have unnamed := opened.members number
  rw [missing] at unnamed
  simpa using Option.map_eq_none_iff.mp unnamed.symm

theorem Opened.selves (opened : Opened shared configs c) :
    c.members.map (·.node.self) = configs.map Config.pointer := by
  refine List.ext_getElem? fun number => ?_
  have named := congrArg (Option.map fun pair => pair.1.pointer) (opened.members number)
  rw [Option.map_map, Option.map_map] at named
  rw [List.getElem?_map, List.getElem?_map]
  exact named

theorem Opened.update (opened : Opened shared configs c) {change : Node → Node}
    (keeps : ∀ node ∈ c.members[number]?.map (·.node), (change node).config = node.config) :
    Opened shared configs (c.update number change) where
  members j := by
    rw [← opened.members j]
    by_cases same : number = j
    · subst same
      cases there : c.members[number]? with
      | none => simp [Cluster.update, there]
      | some member =>
        have kept := keeps member.node (by simp [there])
        simp [Cluster.update, there, kept]
    · simp [Cluster.update, same]
  books := opened.books

theorem Opened.amend (opened : Opened shared configs c) (book : Nat)
    (change : AddressBook → AddressBook) : Opened shared configs (c.amend book change) where
  members := opened.members
  books j inside := by
    simpa [Cluster.amend] using opened.books j inside

theorem bookOf_amend {member : Member} (inside : member.book < c.books.length) (book : Nat)
    (change : AddressBook → AddressBook) :
    (c.amend book change).bookOf member =
      if book = member.book then change (c.bookOf member) else c.bookOf member := by
  by_cases same : book = member.book <;>
    simp [bookOf, Cluster.amend, List.getD_eq_getElem?_getD, List.getElem?_eq_getElem inside, same]

theorem Opened.place_amend (opened : Opened shared configs c) (book : Nat)
    (change : AddressBook → AddressBook) (i : Nat) :
    (c.amend book change).place i =
      (c.place i).map fun (node, own) =>
        (node, if book = home shared i then change own else own) := by
  have same : (c.amend book change).members = c.members := rfl
  cases there : c.members[i]? with
  | none => simp [place, same, there]
  | some member =>
    obtain ⟨inside, home⟩ := opened.inside there
    have recorded := bookOf_amend (home ▸ opened.books i inside) book change
    simp [place, same, there, recorded, home]

/-! ## Groups at first -/

/-- What nodes with these settings make up before anything happens. -/
def fresh (shared : Bool) (configs : List Config) : Cluster where
  members := configs.mapIdx fun number config => ⟨.holding config .empty, home shared number⟩
  books := .replicate (if shared then min 1 configs.length else configs.length) .empty

theorem start_concat (shared : Bool) (configs : List Config) (config : Config) :
    start shared (configs ++ [config]) =
      match start shared configs, config.check with
      | .error fault, _ => .error fault
      | .ok _, .error fault => .error fault
      | .ok c, .ok () => .ok (c.add (.holding config .empty) (home shared c.members.length)) := by
  simp only [start, List.foldlM_append, List.foldlM_cons, List.foldlM_nil]
  cases List.foldlM (m := Except Fault) _ empty configs with
  | error fault => rfl
  | ok c => cases usable : config.check <;> simp [Node.start, usable] <;> rfl

theorem fresh_concat (shared : Bool) (configs : List Config) (config : Config) :
    (fresh shared configs).add (.holding config .empty) (home shared configs.length) =
      fresh shared (configs ++ [config]) := by
  cases shared with
  | false => simp [fresh, add, home, List.mapIdx_concat, List.replicate_succ']
  | true =>
    -- The only book there is comes with the first node.
    cases configs with
    | nil => rfl
    | cons first others => simp [fresh, add, home, List.mapIdx_concat]

theorem start_eq_ok_iff :
    start shared configs = .ok c ↔
      (∀ config ∈ configs, config.check = .ok ()) ∧ c = fresh shared configs := by
  induction configs using List.reverseRecOn generalizing c with
  | nil => cases shared <;> simp [start, fresh, empty, pure, Except.pure, eq_comm]
  | append_singleton configs config ih =>
    rw [start_concat, List.forall_mem_append, List.forall_mem_singleton]
    cases started : start shared configs with
    | error fault =>
      have refused : ¬∀ config ∈ configs, config.check = .ok () := fun usable =>
        nomatch started.symm.trans (ih.mpr ⟨usable, rfl⟩)
      simp [refused]
    | ok before =>
      obtain ⟨usable, rfl⟩ := ih.mp started
      have length : (fresh shared configs).members.length = configs.length := by simp [fresh]
      cases config.check with
      | error fault => simp
      | ok =>
        simp only [length, fresh_concat, Except.ok.injEq, and_true]
        exact ⟨fun same => ⟨usable, same.symm⟩, fun found => found.2.symm⟩

theorem fresh_opened (shared : Bool) (configs : List Config) :
    Opened shared configs (fresh shared configs) where
  members number := by
    simp [fresh, Node.holding, Function.comp_def]
  books number inside := by
    cases shared <;> simp [fresh, home] <;> omega

theorem fresh_place (named : configs[i]? = some config) :
    (fresh shared configs).place i = some (.holding config .empty, .empty) := by
  have book (member : Member) : (fresh shared configs).bookOf member = .empty := by
    have there : ∀ book ∈ (fresh shared configs).books[member.book]?, book = .empty :=
      fun book found => List.eq_of_mem_replicate (List.mem_of_getElem? found)
    rw [bookOf, List.getD_eq_getElem?_getD]
    cases found : (fresh shared configs).books[member.book]? with
    | none => rfl
    | some book => exact there book found
  simp [place, book]
  simp [fresh, named]

/-! ## What an event is for one node -/

/-- What is seen of an event at the node of number `i`, and the node and its book afterwards. -/
def Event.effect (shared : Bool) (configs : List Config) (i : Nat) :
    Event → Node × AddressBook → List Seen × Node × AddressBook
  | .on number step, (node, book) =>
    if number = i then
      let (seen, node) := onNode book (configs.map Config.pointer) node step
      ([seen], node, onBook book step)
    else if number < configs.length ∧ home shared number = home shared i then
      ([], node, onBook book step)
    else ([], node, book)
  | .pass number progress, (node, book) =>
    ([], if number = i then { node with log := progress node.log } else node, book)
  | .register number id address, (node, book) =>
    ([], node, if number = home shared i then book.register id address else book)

theorem Opened.happen (opened : Opened shared configs c) (event : Event) :
    Opened shared configs (c.happen event).2 := by
  cases event with
  | on number step =>
    cases found : c.members[number]? with
    | none => simpa [Cluster.happen, perform, found] using opened
    | some member =>
      rw [Cluster.happen, perform_eq found]
      refine (opened.update ?_).amend _ _
      simp [found, onNode_config]
  | pass number progress =>
    have kept : ∀ node ∈ c.members[number]?.map (·.node),
        ({ node with log := progress node.log } : Node).config = node.config := fun _ _ => rfl
    exact opened.update kept
  | register book id address => exact opened.amend _ _

variable {state : Node × AddressBook}

/-- What an event in a group is for one node depends on nothing but that node and its book. -/
theorem Opened.happen_place (opened : Opened shared configs c) (there : c.place i = some state)
    (event : Event) :
    seenAt i (c.happen event).1 = (event.effect shared configs i state).1 ∧
      (c.happen event).2.place i = some (event.effect shared configs i state).2 := by
  obtain ⟨node, book⟩ := state
  cases event with
  | on number step =>
    cases found : c.members[number]? with
    | none =>
      have other : number ≠ i := by
        rintro rfl
        simp [place, found] at there
      simp [Cluster.happen, perform, found, Event.effect, opened.missing found, other, there,
        seenAt]
    | some member =>
      obtain ⟨inside, home⟩ := opened.inside found
      have changed : Opened shared configs (c.update number fun _ =>
          (onNode (c.bookOf member) (configs.map Config.pointer) member.node step).2) :=
        opened.update (by simp [found, onNode_config])
      rw [Cluster.happen, perform_eq found, opened.selves]
      dsimp only
      rw [changed.place_amend, place_update, there]
      by_cases own : number = i
      · subst own
        obtain ⟨rfl, rfl⟩ : member.node = node ∧ c.bookOf member = book := by
          simpa [place, found] using there
        simp [Event.effect, seenAt, home]
      · by_cases same : Cluster.home shared number = Cluster.home shared i
        · simp [Event.effect, seenAt, own, inside, home, same]
        · simp [Event.effect, seenAt, own, home, same]
  | pass number progress =>
    rw [Cluster.happen, place_update, there]
    exact ⟨rfl, rfl⟩
  | register number id address =>
    rw [Cluster.happen, opened.place_amend, there]
    exact ⟨rfl, rfl⟩

/-! ## The same for the node alone -/

theorem onNode_alone (inside : i < configs.length) (book : AddressBook) (own : Leader)
    (node : Node) (step : Step) :
    onNode book [own] node (step.alone configs) =
      onNode book (configs.map Config.pointer) node step := by
  cases step with
  | follow other =>
    cases found : configs[other]? with
    | some config => simp [Step.alone, onNode, found]
    | none =>
      have beyond : configs.length ≤ other := List.getElem?_eq_none_iff.mp found
      have missing : [own][other]? = none := List.getElem?_eq_none (by simp; omega)
      simp [Step.alone, onNode, found, missing]
  | _ => rfl

theorem onBook_alone (configs : List Config) (book : AddressBook) (step : Step) :
    onBook book (step.alone configs) = onBook book step := by
  cases step with
  | follow other =>
    simp only [Step.alone]
    cases configs[other]? <;> rfl
  | _ => rfl

/-- What is left of an event for a node alone is for it what the event was. -/
theorem effect_alone (named : configs[i]? = some config) (event : Event) :
    (event.alone shared configs i = [] ∧ event.effect shared configs i state = ([], state)) ∨
      ∃ own, event.alone shared configs i = [own] ∧
        own.effect shared [config] 0 state = event.effect shared configs i state := by
  obtain ⟨node, book⟩ := state
  have inside : i < configs.length := (List.getElem?_eq_some_iff.mp named).1
  cases event with
  | on number step =>
    by_cases own : number = i
    · refine .inr ⟨.on 0 (step.alone configs), by simp [Event.alone, own], ?_⟩
      simp [Event.effect, own, onNode_alone inside, onBook_alone]
    · cases step with
      | register id address =>
        by_cases same : number < configs.length ∧ home shared number = home shared i
        · refine .inr ⟨.register 0 id address, by simp [Event.alone, own, same], ?_⟩
          simp [Event.effect, own, same, onBook]
        · exact .inl ⟨by simp [Event.alone, own, same], by simp [Event.effect, own, same]⟩
      | _ => exact .inl ⟨by simp [Event.alone, own], by simp [Event.effect, own, onBook]⟩
  | pass number progress =>
    by_cases own : number = i
    · exact .inr ⟨.pass 0 progress, by simp [Event.alone, own], by simp [Event.effect, own]⟩
    · exact .inl ⟨by simp [Event.alone, own], by simp [Event.effect, own]⟩
  | register number id address =>
    by_cases same : number = home shared i
    · exact .inr ⟨.register 0 id address, by simp [Event.alone, same],
        by simp [Event.effect, same]⟩
    · exact .inl ⟨by simp [Event.alone, same], by simp [Event.effect, same]⟩

/-- A node of a group and the same node in a group of its own, with the same book. -/
structure Mirrors (shared : Bool) (configs : List Config) (i : Nat) (config : Config)
    (group alone : Cluster) : Prop where
  opened : Opened shared configs group
  lone : Opened shared [config] alone
  same : ∃ state, group.place i = some state ∧ alone.place 0 = some state

theorem Mirrors.happen {group alone : Cluster} (named : configs[i]? = some config)
    (mirrors : Mirrors shared configs i config group alone) (event : Event) :
    let (seen, after) := observe happen alone (event.alone shared configs i)
    (∀ _ : Unit, seenAt i (group.happen event).1 = seenAt 0 seen) ∧
      Mirrors shared configs i config (group.happen event).2 after := by
  obtain ⟨opened, lone, state, place, home⟩ := mirrors
  obtain ⟨seen, place⟩ := opened.happen_place place event
  rcases effect_alone named event with ⟨nothing, unmoved⟩ | ⟨own, left, same⟩
  · rw [nothing]
    rw [unmoved] at seen place
    exact ⟨fun _ => seen, opened.happen event, lone, state, place, home⟩
  · obtain ⟨seen', home⟩ := lone.happen_place home own
    rw [same] at seen' home
    rw [left, observe_singleton]
    exact ⟨fun _ => seen.trans seen'.symm, opened.happen event, lone.happen own, _, place, home⟩

/-- No node of a group can tell that there are others, except by the book it looks into.

A node that is alone, with its own steps, its own timing and the registrations in its
book, replies the same throughout and ends up the same, with a book of the same entries.
A step on a node changes no other one, and none but a registration changes a book. -/
theorem each_node_as_if_alone (shared : Bool) (configs : List Config) (i : Nat) (config : Config)
    (group : Cluster) (named : configs[i]? = some config)
    (started : start shared configs = .ok group) :
    (∃ alone, start shared [config] = .ok alone ∧
      ∀ events : List Event,
        let (seen, group) := observe happen group events
        let (own, alone) := observe happen alone (events.flatMap (Event.alone shared configs i))
        seenAt i seen = seenAt 0 own ∧
        ∃ node book, group.place i = some (node, book) ∧ alone.place 0 = some (node, book)) ∧
    ∀ (c : Cluster) (number : Nat) (step : Step) (seen : Seen) (after : Cluster),
      c.perform number step = some (seen, after) →
        (∀ other ≠ number, after.members[other]? = c.members[other]?) ∧
        ((∀ id address, step ≠ .register id address) → after.books = c.books) := by
  obtain ⟨usable, rfl⟩ := start_eq_ok_iff.mp started
  have config_usable := usable config (List.mem_of_getElem? named)
  have lone : start shared [config] = .ok (fresh shared [config]) :=
    start_eq_ok_iff.mpr ⟨List.forall_mem_singleton.mpr config_usable, rfl⟩
  have mirrors : Mirrors shared configs i config (fresh shared configs) (fresh shared [config]) :=
    ⟨fresh_opened _ _, fresh_opened _ _, _, fresh_place named, fresh_place rfl⟩
  refine ⟨⟨_, lone, fun events => ?_⟩, fun c number step seen after performed => ?_⟩
  · obtain ⟨seen, final⟩ := observe_agrees (Mirrors shared configs i config)
      (Event.alone shared configs i) (fun _ : Unit => i) (fun _ => 0)
      (fun event _ _ _ mirrors => mirrors.happen named event) mirrors
    obtain ⟨⟨node, book⟩, place, home⟩ := final.same
    exact ⟨seen (), node, book, place, home⟩
  · cases found : c.members[number]? with
    | none => simp [perform, found] at performed
    | some member =>
      rw [perform_eq found] at performed
      obtain ⟨rfl, rfl⟩ := Prod.mk.inj (Option.some.inj performed)
      refine ⟨fun other elsewhere => ?_, fun silent => ?_⟩
      · simp [amend, update, Ne.symm elsewhere]
      · have same : (onBook · step) = id := funext (onBook_of_not_register silent)
        simp only [amend, update, same, List.modify_id]

deriving instance DecidableEq for Seen

/-- A node follows another one, which registers its client address, and redirects a client there. -/
theorem each_node_as_if_alone_redirect :
    let north : Config := { nodeId := "north" }
    let south : Config := { nodeId := "south", peerAddress := "10.0.0.2:7379" }
    let get : Event := .on 0 (.handle (Request.get [107]).command)
    let events : List Event :=
      [.on 1 .becomeLeader, .on 0 (.follow 1), .on 1 (.register "south" "10.0.0.2:6379"), get]
    let own : List Event :=
      [.on 0 (.becomeFollower (some south.pointer)), .register 0 "south" "10.0.0.2:6379", get]
    let group := fresh true [north, south]
    let alone := fresh true [north]
    start true [north, south] = .ok group ∧ start true [north] = .ok alone ∧
      seenAt 0 (observe happen group events).1 =
        [.done, .reply (.error "MOVED -1 10.0.0.2:6379")] ∧
      seenAt 0 (observe happen alone own).1 = seenAt 0 (observe happen group events).1 := by
  intro north south get events own group alone
  have started : start true [north, south] = .ok group :=
    start_eq_ok_iff.mpr ⟨by decide, rfl⟩
  have lone : start true [north] = .ok alone := start_eq_ok_iff.mpr ⟨by decide, rfl⟩
  obtain ⟨⟨_, same, agree⟩, -⟩ :=
    each_node_as_if_alone true [north, south] 0 north group rfl started
  obtain rfl := Except.ok.inj (lone.symm.trans same)
  exact ⟨started, lone, by decide +kernel, (agree events).1.symm⟩

end Cluster

end LogKv
