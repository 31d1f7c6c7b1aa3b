import TensorDataflow.Engine.Basic
/-!
# Contexts at hand

A thread keeps the contexts that it has used at hand, by the number of the engine they belong to, so
that it need not ask the engine again. An engine that goes away takes the entry of the thread that
drops it; the entries that other threads have for it stay until they miss something or put something
at hand.
-/

namespace TensorDataflow

/-- What the threads have at hand. -/
structure ContextCache where
  entries : List ((ThreadId × Nat) × Context) := []
  deriving DecidableEq, Repr, Inhabited

namespace ContextCache

def find? (cache : ContextCache) (thread : ThreadId) (n : Nat) : Option Context :=
  cache.entries.lookup (thread, n)

/-- Drops what a thread has for engines that are gone. -/
def prune (cache : ContextCache) (thread : ThreadId) (alive : Nat → Bool) : ContextCache :=
  ⟨cache.entries.filter fun e => e.1.1 ≠ thread || alive e.1.2⟩

/-- Drops what a thread has for one engine. -/
def forget (cache : ContextCache) (thread : ThreadId) (n : Nat) : ContextCache :=
  ⟨cache.entries.filter fun e => e.1 ≠ (thread, n)⟩

/-- Puts a context at hand, and drops what the thread has for engines that are gone. -/
def keep (cache : ContextCache) (thread : ThreadId) (alive : Nat → Bool) (n : Nat) (c : Context) :
    ContextCache :=
  ⟨((thread, n), c) :: ((cache.prune thread alive).forget thread n).entries⟩

end ContextCache

end TensorDataflow
