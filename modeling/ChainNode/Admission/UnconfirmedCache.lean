import ChainNode.Transaction

/-!
# The unconfirmed cache

What the repository holds unconfirmed while a batch is imported: read once before the batch, and kept up
with the batch's own imports.
-/

namespace ChainNode.Admission

structure UnconfirmedCache where
  transactions : List Transaction := []
  /-- What is looked up instead of the transactions. -/
  index : List Signature := []
  mem_index_iff : ∀ s, s ∈ index ↔ s ∈ transactions.map (·.signature) := by simp
deriving DecidableEq

namespace UnconfirmedCache

def ofTransactions (transactions : List Transaction) : UnconfirmedCache where
  transactions := transactions
  index := transactions.map (·.signature)
  mem_index_iff _ := Iff.rfl

def contains (c : UnconfirmedCache) (s : Signature) : Bool := c.index.contains s

theorem contains_iff {c : UnconfirmedCache} {s : Signature} :
    c.contains s = true ↔ ∃ tx ∈ c.transactions, tx.signature = s := by
  rw [contains, List.contains_iff_mem, c.mem_index_iff, List.mem_map]

/-- Adds a transaction unless one with its signature is there. -/
def push (c : UnconfirmedCache) (tx : Transaction) : UnconfirmedCache :=
  if c.contains tx.signature then c
  else
    { transactions := c.transactions ++ [tx]
      index := c.index ++ [tx.signature]
      mem_index_iff := by simp [c.mem_index_iff] }

theorem contains_push (c : UnconfirmedCache) (tx : Transaction) (s : Signature) :
    (c.push tx).contains s = (c.contains s || decide (tx.signature = s)) := by
  unfold push
  by_cases h : c.contains tx.signature
  · rw [if_pos h]
    by_cases hs : tx.signature = s
    · subst hs; simp [h]
    · simp [hs]
  · rw [if_neg h]
    simp [contains, eq_comm]

/-- The signatures of the transactions, each once. -/
def signatures (c : UnconfirmedCache) : List Signature :=
  (c.transactions.map (·.signature)).eraseDups

def size (c : UnconfirmedCache) : Nat := c.transactions.length

def isEmpty (c : UnconfirmedCache) : Bool := c.transactions.isEmpty

end UnconfirmedCache
end ChainNode.Admission
