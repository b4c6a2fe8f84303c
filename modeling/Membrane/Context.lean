import Membrane.Crossing

/-!
# The life of contexts

A context lives as long as somebody holds it. Wrappers and what is remembered do not count as
holding it. When the last handle is let go, everything remembered is forgotten and the context never
comes back.
-/

namespace Membrane.World

variable {σ : Type}

/-- Opens a context, with one handle. -/
def openContext (w : World σ) (policy : Policy) : ContextId × World σ :=
  (⟨w.contexts.size⟩, { w with contexts := w.contexts.push { policy } })

/-- Takes another handle of a context. -/
def retain (w : World σ) (id : ContextId) : World σ :=
  w.modifyContext id fun c => if c.isAlive then { c with handles := c.handles + 1 } else c

/-- Lets a handle of a context go. With the last one goes what the context remembers. -/
def release (w : World σ) (id : ContextId) : World σ :=
  w.modifyContext id fun c =>
    if c.handles ≤ 1 then { c with handles := 0, cache := {} }
    else { c with handles := c.handles - 1 }

/-- How many keys a context remembers. -/
def remembered (w : World σ) (id : ContextId) : Nat :=
  ((w.context? id).map (·.cache.size)).getD 0

/-- Makes a strategy the one in force for new policies, and gives the previous one. -/
def setInForce (w : World σ) (accessor : Accessor) : Accessor × World σ :=
  (w.inForce, { w with inForce := accessor })

/-- Where a context wraps values: under its own policy. -/
def contextSite (w : World σ) (id : ContextId) (realm : Option Realm) : Option Site :=
  (w.context? id).map fun c => ⟨c.policy, some id, realm⟩

end Membrane.World
