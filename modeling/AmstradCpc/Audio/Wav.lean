/-
Sound files: two channels of 16-bit samples, uncompressed.
-/
import AmstradCpc.Bytes
import AmstradCpc.Psg

namespace AmstradCpc.Wav

/-- Samples per second. -/
def sampleRate : UInt32 := 44100

/-- Bytes for one moment on both sides. -/
def frameSize : Nat := 4

/-- The bytes before the samples. -/
def headerSize : Nat := 44

/-- A number in four bytes, the lowest first. -/
def pushLong (out : ByteArray) (v : UInt32) : ByteArray :=
  (((out.push v.toUInt8).push (v >>> 8).toUInt8).push (v >>> 16).toUInt8).push (v >>> 24).toUInt8

/-- A number in two bytes, the lowest first. -/
def pushWord (out : ByteArray) (v : UInt16) : ByteArray :=
  (out.push v.toUInt8).push (v >>> 8).toUInt8

/-- Samples are cut off beyond one, and rounded towards zero. -/
def quantised (v : Float32) : UInt16 :=
  let v := if v < -1 then -1 else if 1 < v then 1 else v
  (v * 32767).toInt16.toUInt16

def header (samples : Nat) : ByteArray :=
  let size := samples * frameSize
  let out := "RIFF".toUTF8
  let out := pushLong out (headerSize - 8 + size).toUInt32
  let out := out ++ "WAVEfmt ".toUTF8
  let out := pushLong out 16
  let out := pushWord (pushWord out 1) 2
  let out := pushLong (pushLong out sampleRate) (sampleRate * frameSize.toUInt32)
  let out := pushWord (pushWord out frameSize.toUInt16) 16
  pushLong (out ++ "data".toUTF8) size.toUInt32

/-- The whole file. -/
def encode (samples : Array Psg.Sample) : ByteArray :=
  samples.foldl (fun out s => pushWord (pushWord out (quantised s.left)) (quantised s.right))
    (header samples.size)

end AmstradCpc.Wav
