import ChainNode.Bytes

/-!
# Hexadecimal text

Two lower-case digits a byte, the high half first.
-/

namespace ChainNode.Hex

def encode (bs : Bytes) : String :=
  String.ofList (bs.flatMap fun b => [Nat.digitChar (b.toNat / 16), Nat.digitChar (b.toNat % 16)])

end ChainNode.Hex

namespace ChainNode

/-- The text under which a signature is kept and logged. -/
def signatureText (signature : Signature) : String := Hex.encode signature.toBytes

/-- The first four bytes, enough to recognise a signature in a log. -/
def shortSignature (signature : Signature) : String := Hex.encode (signature.toBytes.take 4)

end ChainNode
