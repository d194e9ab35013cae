import Acva.Event.Event

/-!
# Turn contexts and cancellation tokens

A `CancellationToken` is one bit behind a `shared_ptr`. Tokens live in a heap and are named by
their address, so that every holder of a reference sees the same bit.
-/

namespace Acva

abbrev TokenRef := Nat

/-- The tokens allocated so far, and those whose flag is set. A flag is never cleared. -/
structure TokenHeap where
  next : TokenRef := 0
  cancelled : List TokenRef := []
  deriving DecidableEq, Repr

namespace TokenHeap

/-- `std::make_shared<CancellationToken>()`. -/
def alloc (h : TokenHeap) : TokenRef × TokenHeap := (h.next, { h with next := h.next + 1 })

def cancel (h : TokenHeap) (r : TokenRef) : TokenHeap := { h with cancelled := r :: h.cancelled }

def isCancelled (h : TokenHeap) (r : TokenRef) : Bool := decide (r ∈ h.cancelled)

@[simp] lemma alloc_fst (h : TokenHeap) : h.alloc.1 = h.next := rfl

@[simp] lemma alloc_snd_next (h : TokenHeap) : h.alloc.2.next = h.next + 1 := rfl

@[simp] lemma isCancelled_alloc (h : TokenHeap) (r : TokenRef) :
    h.alloc.2.isCancelled r = h.isCancelled r := rfl

@[simp] lemma cancel_next (h : TokenHeap) (r : TokenRef) : (h.cancel r).next = h.next := rfl

@[simp] lemma isCancelled_cancel (h : TokenHeap) (r x : TokenRef) :
    (h.cancel r).isCancelled x = (decide (x = r) || h.isCancelled x) := by
  simp [isCancelled, cancel]

end TokenHeap

/-- The per-turn handle. -/
structure TurnContext where
  id : TurnId := kNoTurn
  token : Option TokenRef := none
  startedAt : Time := 0
  deriving DecidableEq, Repr

def TurnContext.valid (c : TurnContext) : Bool := c.id ≠ kNoTurn && c.token.isSome

/-- `TurnFactory`: the next id, and the heap its contexts' tokens live in. -/
structure TurnFactory where
  next : TurnId := 1
  tokens : TokenHeap := {}
  deriving DecidableEq, Repr

namespace TurnFactory

/-- A fresh id with a fresh token. -/
def mint (f : TurnFactory) (now : Time) : TurnContext × TurnFactory :=
  ({ id := f.next, token := some f.tokens.next, startedAt := now },
   { next := f.next + 1, tokens := f.tokens.alloc.2 })

/-- A fresh token for an id that another component minted. -/
def adopt (f : TurnFactory) (id : TurnId) (now : Time) : TurnContext × TurnFactory :=
  ({ id := id, token := some f.tokens.next, startedAt := now }, { f with tokens := f.tokens.alloc.2 })

def cancel (f : TurnFactory) (r : TokenRef) : TurnFactory := { f with tokens := f.tokens.cancel r }

@[simp] lemma mint_id (f : TurnFactory) (now : Time) : (f.mint now).1.id = f.next := rfl

@[simp] lemma mint_next (f : TurnFactory) (now : Time) : (f.mint now).2.next = f.next + 1 := rfl

@[simp] lemma adopt_id (f : TurnFactory) (id : TurnId) (now : Time) : (f.adopt id now).1.id = id := rfl

@[simp] lemma adopt_next (f : TurnFactory) (id : TurnId) (now : Time) : (f.adopt id now).2.next = f.next :=
  rfl

@[simp] lemma cancel_next (f : TurnFactory) (r : TokenRef) : (f.cancel r).next = f.next := rfl

end TurnFactory

end Acva
