import LogKv.Store

/-!
What reads and applied writes need of a store, whatever keeps it. A call that fails leaves the
store as it was.
-/

namespace LogKv

/-- The operations of a store whose states are `σ`. -/
structure Storage (σ : Type) where
  /-- The value of a key. An unbound key is the fault `keyNotFound`. -/
  get : σ → Bytes → Except Fault Bytes
  /-- Binds a key. -/
  put : σ → Bytes → Bytes → Except Fault σ
  /-- Unbinds a key. An unbound key is the fault `keyNotFound`. -/
  delete : σ → Bytes → Except Fault σ

namespace Storage

/-- A store in memory, which fails only for want of a key. -/
def memory : Storage Store where
  get s key :=
    match s.get? key with
    | some value => .ok value
    | none => .error .keyNotFound
  put s key value := .ok (s.put key value)
  delete s key :=
    match s.get? key with
    | some _ => .ok (s.erase key)
    | none => .error .keyNotFound

/-- A store that fails every call in the same way. -/
def failing {σ : Type} (fault : Fault) : Storage σ where
  get _ _ := .error fault
  put _ _ _ := .error fault
  delete _ _ := .error fault

end Storage

end LogKv
