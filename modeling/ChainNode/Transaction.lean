import ChainNode.Ed25519.Signing

/-!
# Transactions

A transaction relayed by a peer. Its body is opaque here: only its signature and its deadline are
checked, the rest is up to the repository.
-/

namespace ChainNode

/-- The class of a transaction. `chat` is the one of low priority. -/
inductive TransactionType
  | payment
  | transfer
  | message
  | chat
  | other (tag : UInt8)
deriving DecidableEq

namespace TransactionType

/-- The number that stands for the type in what is signed. -/
def tag : TransactionType → UInt8
  | .payment => 2
  | .transfer => 12
  | .message => 17
  | .chat => 18
  | .other tag => tag

/-- The named type of a tag, if it has one. -/
def ofTag (tag : UInt8) : TransactionType :=
  if tag = 2 then .payment
  else if tag = 12 then .transfer
  else if tag = 17 then .message
  else if tag = 18 then .chat
  else .other tag

@[simp] theorem tag_ofTag (n : UInt8) : (ofTag n).tag = n := by
  unfold ofTag
  repeat' split
  all_goals simp_all [tag]

end TransactionType

/-- The block last accepted, against which deadlines are held. -/
structure ChainTip where
  height : UInt32
  timestamp : UInt64
deriving DecidableEq

structure Transaction where
  type : TransactionType
  /-- Milliseconds since the epoch. -/
  timestamp : UInt64
  creator : PublicKey
  body : Bytes
  signature : Signature
deriving DecidableEq

namespace Transaction

/-- How long a transaction may still be included after its own timestamp: 24 hours. -/
def lifetime : UInt64 := 86400000

/-- The last moment at which the transaction may still be included. There is none after the last
timestamp there is. -/
def deadline (tx : Transaction) : UInt64 :=
  UInt64.ofNat (min (tx.timestamp.toNat + lifetime.toNat) (UInt64.size - 1))

/-- The tip has reached or passed the deadline. -/
def isExpiredAt (tx : Transaction) (tip : ChainTip) : Bool := decide (tx.deadline ≤ tip.timestamp)

/-- What the creator signs: the type's tag, the timestamp, the creator and the body. -/
def signedBytes (tx : Transaction) : Bytes :=
  tx.type.tag :: BigEndian.ofUInt64 tx.timestamp ++ tx.creator.toBytes ++ tx.body

def verifies (tx : Transaction) : Bool :=
  Ed25519.verify tx.creator tx.signedBytes tx.signature

/-- Each transaction's signature with its verdict, in their order. -/
def verdicts (txs : List Transaction) : List (Signature × Bool) :=
  txs.map fun tx => (tx.signature, tx.verifies)

/-- The transaction with the creator and the signature that belong to `key`. -/
def signed (key : Ed25519.SigningKey) (type : TransactionType) (timestamp : UInt64) (body : Bytes) :
    Transaction :=
  let unsigned : Transaction := ⟨type, timestamp, key.publicKey, body, .replicate 64 0⟩
  { unsigned with signature := key.sign unsigned.signedBytes }

/-- A payment whose body has grown by a byte since it was signed. -/
def tampered (key : Ed25519.SigningKey) (timestamp : UInt64) (body : Bytes) : Transaction :=
  let tx := signed key .payment timestamp body
  { tx with body := tx.body ++ [0xff] }

end Transaction
end ChainNode
