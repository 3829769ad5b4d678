import LogKv.Reply

/-!
The gate of a server: how many clients are served at a time. A client that finds the gate full is
told so and sent away; a client that comes after the server stopped is not let in at all. A client
is counted before the limit is checked, and no longer counts once it is sent away.
-/

namespace LogKv

/-- The gate of a server. -/
structure Gate where
  /-- The most clients served at a time. -/
  limit : Nat
  /-- The clients being served. -/
  active : Nat
  /-- Whether the server has stopped letting clients in. -/
  stopped : Bool
  deriving DecidableEq, Repr

/-- What becomes of a client that arrives. -/
inductive Welcome where
  /-- It is served. -/
  | served
  /-- It gets this one reply and is sent away. -/
  | sentAway (reply : Reply)
  /-- Nobody answers. -/
  | unanswered
  deriving DecidableEq, Repr

namespace Gate

/-- A gate that nobody has passed. -/
def start (limit : Nat) : Gate := ⟨limit, 0, false⟩

/-- The reply to a client that finds the gate full. -/
def full : Reply := .failure "max number of clients reached"

/-- A client that was counted leaves. -/
def leave (g : Gate) : Gate := { g with active := g.active - 1 }

/-- A client arrives. -/
def arrive (g : Gate) : Welcome × Gate :=
  if g.stopped then (.unanswered, g)
  else
    let counted := { g with active := g.active + 1 }
    if counted.limit < counted.active then (.sentAway full, counted.leave)
    else (.served, counted)

/-- The server stops letting clients in. -/
def stop (g : Gate) : Gate := { g with stopped := true }

end Gate

end LogKv
