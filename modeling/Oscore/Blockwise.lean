/-
This file keeps the blockwise transfers in progress under a context.

A transfer belongs to one exchange: a token, a peer and a direction. The store
holds at most one entry for each exchange, and the laws at the end say what is
kept for each after a change.
-/

import Oscore.Bytes
import Oscore.SocketAddress

namespace Oscore.Blockwise

/-- One direction of an exchange with a peer. -/
structure Exchange where
  token : Bytes
  peer : SocketAddress
  /-- Whether the response is transferred, rather than the request. -/
  response : Bool
  deriving DecidableEq, Repr

/-- How far a body has been transferred. -/
structure Progress where
  /-- The number of the current block. -/
  number : Nat := 0
  /-- The exponent of the block size. -/
  exponent : Nat := 0
  /-- Whether the last block was seen. -/
  complete : Bool := false
  /-- The format of the body, if it is known. -/
  contentFormat : Option Nat := none
  /-- The blocks so far. -/
  body : Bytes := []
  deriving DecidableEq, Repr

namespace Progress

/-- The size of a block, from 16 to 1024 bytes. -/
def blockSize (progress : Progress) : Nat := 16 <<< min progress.exponent 6

/-- Appends a block; `more` says whether others follow. -/
def push (progress : Progress) (block : Bytes) (more : Bool) : Progress :=
  { progress with
    body := progress.body ++ block, number := progress.number + 1, complete := !more }

end Progress

/-- What is kept for an exchange. -/
structure Transfer where
  /-- How far the transfer is, if it goes block by block. -/
  progress : Option Progress := none
  /-- The protected response that is being sent. -/
  outgoing : Option Bytes := none
  deriving DecidableEq, Repr

/-- Appends a block to a transfer, which starts if it had not. -/
def Transfer.push (transfer : Transfer) (block : Bytes) (more : Bool) : Transfer :=
  { transfer with progress := some ((transfer.progress.getD {}).push block more) }

/-! ### The store -/

/-- The transfers in progress, with at most one entry for an exchange. -/
structure Store where
  entries : List (Exchange × Transfer) := []
  deriving Repr, Inhabited

namespace Store

/-- What is kept for an exchange. -/
def get? (store : Store) (exchange : Exchange) : Option Transfer := store.entries.lookup exchange

/-- The store without an exchange. -/
def without (store : Store) (exchange : Exchange) : Store :=
  ⟨store.entries.filter fun entry => entry.1 ≠ exchange⟩

/-- The store with a transfer for an exchange in place of what was kept before. -/
def put (store : Store) (exchange : Exchange) (transfer : Transfer) : Store :=
  ⟨(exchange, transfer) :: (store.without exchange).entries⟩

/-- Keeps a transfer for an exchange and answers what was kept before. -/
def insert (store : Store) (exchange : Exchange) (transfer : Transfer) : Option Transfer × Store :=
  (store.get? exchange, store.put exchange transfer)

/-- Changes what is kept for an exchange, starting from an empty transfer if nothing is. -/
def update (store : Store) (exchange : Exchange) (change : Transfer → Transfer) : Store :=
  store.put exchange (change ((store.get? exchange).getD {}))

/-- Forgets an exchange and answers what was kept for it. -/
def remove (store : Store) (exchange : Exchange) : Option Transfer × Store :=
  (store.get? exchange, store.without exchange)

/-- Forgets every exchange. -/
def clear (_ : Store) : Store := {}

/-- The number of exchanges for which something is kept. -/
def size (store : Store) : Nat := store.entries.length

/-- Whether nothing is kept. -/
def isEmpty (store : Store) : Bool := store.entries.isEmpty

/-! ### Laws of the store -/

@[simp] theorem get?_without_self (store : Store) (exchange : Exchange) :
    (store.without exchange).get? exchange = none := by
  rw [get?, List.lookup_eq_none_iff]
  intro entry member
  have other := of_decide_eq_true (List.mem_filter.mp member).2
  exact bne_iff_ne.mpr (Ne.symm other)

theorem get?_without_of_ne {exchange other : Exchange} (different : other ≠ exchange)
    (store : Store) : (store.without exchange).get? other = store.get? other := by
  obtain ⟨entries⟩ := store
  simp only [get?, without]
  induction entries with
  | nil => rfl
  | cons entry rest inductionHypothesis =>
    by_cases same : entry.1 = exchange
    · rw [List.filter_cons_of_neg (by simp [same]), inductionHypothesis, List.lookup_cons,
        beq_eq_false_iff_ne.mpr (same ▸ different)]
    · rw [List.filter_cons_of_pos (by simp [same]), List.lookup_cons, List.lookup_cons,
        inductionHypothesis]

@[simp] theorem get?_put_self (store : Store) (exchange : Exchange) (transfer : Transfer) :
    (store.put exchange transfer).get? exchange = some transfer := by
  rw [get?, put, List.lookup_cons, beq_self_eq_true]

theorem get?_put_of_ne {exchange other : Exchange} (different : other ≠ exchange)
    (store : Store) (transfer : Transfer) :
    (store.put exchange transfer).get? other = store.get? other := by
  rw [get?, put, List.lookup_cons, beq_eq_false_iff_ne.mpr different]
  exact get?_without_of_ne different store

end Store

end Oscore.Blockwise
