import ReplicatedLog.Codec.Basic

/-!
# Codecs of texts

Three codecs for texts that need no format: the text as it stands, the bytes that
the text spells in hexadecimal, and the codec that refuses everything.
-/

namespace ReplicatedLog
namespace Codec

/-- Stores a text as its UTF-8 bytes. -/
def plain : Codec String where
  encode s := .ok (Bytes.ofString s)
  decode bytes :=
    match bytes.toString? with
    | some s => .ok s
    | none => .error ⟨.decoding, "utf8"⟩

/-- Stores the bytes that a text spells, and spells the bytes it finds. -/
def hexadecimal : Codec String where
  encode s :=
    match Bytes.ofHex? s.toList with
    | some bytes => .ok bytes
    | none => .error ⟨.encoding, "hex"⟩
  decode bytes := .ok bytes.toHex

/-- Refuses every text and every byte. -/
def refusing : Codec String where
  encode _ := .error ⟨.encoding, "refused"⟩
  decode _ := .error ⟨.decoding, "refused"⟩

end Codec
end ReplicatedLog
