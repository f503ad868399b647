import TimeSeries.Bytes

/-!
# Compression

Serialized series can be stored compressed. The codecs themselves stand outside this library and
are a parameter of it, the class `BlockCodec`. What the library relies on is that unpacking gives
back what was packed; that is the class `LawfulBlockCodec`.
-/

namespace TimeSeries

/-- The codec for stored series. -/
inductive Compression where
  | none
  | lz4
  | zstd (level : Int)
  deriving DecidableEq, Repr, Inhabited

/-- The codecs that stand outside this library. Those that can fail say why. -/
class BlockCodec where
  packLz4 : Bytes → Bytes
  unpackLz4 : Bytes → Except String Bytes
  packZstd : (level : Int) → Bytes → Except String Bytes
  unpackZstd : Bytes → Except String Bytes

/-- Codecs that lose nothing. -/
class LawfulBlockCodec [BlockCodec] : Prop where
  unpackLz4_packLz4 (bytes : Bytes) :
    BlockCodec.unpackLz4 (BlockCodec.packLz4 bytes) = .ok bytes
  unpackZstd_of_packZstd {level : Int} {bytes stored : Bytes} :
    BlockCodec.packZstd level bytes = .ok stored → BlockCodec.unpackZstd stored = .ok bytes

/-- The codecs in use where no others are linked: they leave bytes as they are. -/
instance (priority := low) BlockCodec.plain : BlockCodec where
  packLz4 := id
  unpackLz4 := .ok
  packZstd _ := .ok
  unpackZstd := .ok

instance BlockCodec.lawful_plain : @LawfulBlockCodec BlockCodec.plain where
  unpackLz4_packLz4 _ := rfl
  unpackZstd_of_packZstd h := congrArg Except.ok (Except.ok.inj h).symm

namespace Compression

variable [BlockCodec]

/-- The stored form of bytes. -/
def encode (c : Compression) (bytes : Bytes) : Except Error Bytes :=
  match c with
  | none => .ok bytes
  | lz4 => .ok (BlockCodec.packLz4 bytes)
  | zstd level =>
    match BlockCodec.packZstd level bytes with
    | .ok stored => .ok stored
    | .error why => .error (.internal s!"Zstd compress failed: {why}")

/-- The bytes of a stored form. -/
def decode (c : Compression) (stored : Bytes) : Except Error Bytes :=
  match c with
  | none => .ok stored
  | lz4 =>
    match BlockCodec.unpackLz4 stored with
    | .ok bytes => .ok bytes
    | .error why => .error (.malformed (.stated s!"LZ4 decompress failed: {why}"))
  | zstd _ =>
    match BlockCodec.unpackZstd stored with
    | .ok bytes => .ok bytes
    | .error why => .error (.malformed (.stated s!"Zstd decompress failed: {why}"))

/-- What was stored can be read back. -/
theorem decode_of_encode [LawfulBlockCodec] {c : Compression} {bytes stored : Bytes}
    (h : c.encode bytes = .ok stored) : c.decode stored = .ok bytes := by
  cases c with
  | none => simpa [encode, decode, eq_comm] using h
  | lz4 =>
    obtain rfl := Except.ok.inj h
    simp only [decode, LawfulBlockCodec.unpackLz4_packLz4]
  | zstd level =>
    cases hp : BlockCodec.packZstd level bytes with
    | error why => simp [encode, hp] at h
    | ok packed =>
      simp only [encode, hp, Except.ok.injEq] at h
      subst h
      simp only [decode, LawfulBlockCodec.unpackZstd_of_packZstd hp]

end Compression

namespace Compression

/-- How a codec is written in a line of settings. -/
def display : Compression → String
  | none => "none"
  | lz4 => "lz4"
  | zstd level => s!"zstd:{level}"

end Compression

end TimeSeries
