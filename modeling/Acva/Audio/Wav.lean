import Acva.Event.Event
import Acva.Lib.Pcm

/-!
# WAV files

`make_wav` writes a header of fixed length. `read_wav_file` walks over the chunks of a file, with sizes that the file
declares, and is modelled with the accesses it makes to its buffers.
-/

namespace Acva

namespace Wav

open Pcm

/-! ### Writing -/

def makeWav (samples : List Int16) (sampleRateHz : UInt32) : List UInt8 :=
  let kBytesPerSample : UInt32 := 2
  let kChannels : UInt32 := 1
  let dataBytes := UInt32.ofNat samples.length * kBytesPerSample
  let fmtChunk : UInt32 := 16
  let riffPayload := 4 + 8 + fmtChunk + 8 + dataBytes
  ascii "RIFF" ++ bytes32 riffPayload ++ ascii "WAVE" ++ ascii "fmt " ++ bytes32 fmtChunk ++ bytes16 1 ++
    bytes16 kChannels.toUInt16 ++ bytes32 sampleRateHz ++ bytes32 (sampleRateHz * kChannels * kBytesPerSample) ++
    bytes16 (kChannels * kBytesPerSample).toUInt16 ++ bytes16 (kBytesPerSample * 8).toUInt16 ++
    ascii "data" ++ bytes32 dataBytes ++ (encode samples).take dataBytes.toNat

/-! ### Reading -/

/-- An access to a part of a buffer. -/
structure Access where
  offset : Nat
  size : Nat
  capacity : Nat
  deriving DecidableEq, Repr

def Access.InBounds (a : Access) : Prop := a.offset + a.size ≤ a.capacity

def bytesAt (buf : List UInt8) (offset size : Nat) : List UInt8 := (buf.drop offset).take size

def readU32le (buf : List UInt8) (p : Nat) : UInt32 :=
  word32 (buf.getD p 0) (buf.getD (p + 1) 0) (buf.getD (p + 2) 0) (buf.getD (p + 3) 0)

def readU16le (buf : List UInt8) (p : Nat) : UInt16 := word16 (buf.getD p 0) (buf.getD (p + 1) 0)

/-- The variables of the loop. -/
structure Walk where
  pos : Nat := 12
  channels : UInt16 := 0
  bits : UInt16 := 0
  rate : UInt32 := 0
  deriving DecidableEq, Repr

/-- How an iteration ends. -/
inductive Outcome
  | next (w : Walk)
  | refused
  | data (dataOff dataBytes : Nat)
  | exhausted
  deriving DecidableEq, Repr

/-- `8 + sz + (sz & 1U)`, in 32 bits. -/
def step (sz : UInt32) : UInt32 := 8 + sz + (sz &&& 1)

/-- One iteration of the loop over the chunks. -/
def readChunk (buf : List UInt8) (w : Walk) : List Access × Outcome :=
  let read offset size : Access := ⟨w.pos + offset, size, buf.length⟩
  if buf.length < w.pos + 8 then ([], .exhausted)
  else
    let sz := readU32le buf (w.pos + 4)
    if bytesAt buf w.pos 4 = ascii "fmt " then
      if buf.length < w.pos + 8 + 16 then ([read 4 4, read 0 4], .refused)
      else if readU16le buf (w.pos + 8) ≠ 1 then ([read 4 4, read 0 4, read 8 2], .refused)
      else
        ([read 4 4, read 0 4, read 8 2, read 10 2, read 12 4, read 22 2],
          .next
            { pos := w.pos + (step sz).toNat
              channels := readU16le buf (w.pos + 10)
              rate := readU32le buf (w.pos + 12)
              bits := readU16le buf (w.pos + 22) })
    else if bytesAt buf w.pos 4 = ascii "data" then
      ([read 4 4, read 0 4, read 0 4], .data (w.pos + 8) sz.toNat)
    else ([read 4 4, read 0 4, read 0 4], .next { w with pos := w.pos + (step sz).toNat })

/-- The checks after the loop and the copy into a vector of whole samples. -/
def finish (buf : List UInt8) (w : Walk) (dataOff dataBytes : Nat) :
    List Access × Option (List Int16 × UInt32) :=
  if w.channels ≠ 1 ∨ w.bits ≠ 16 ∨ w.rate = 0 ∨ dataOff = 0 ∨ buf.length < dataOff + dataBytes then ([], none)
  else
    ([⟨dataOff, dataBytes, buf.length⟩, ⟨0, dataBytes, 2 * (dataBytes / 2)⟩],
      some (decode (bytesAt buf dataOff dataBytes), w.rate))

/-- The loop and what comes after it: the accesses, and the result if the loop has ended. -/
def walk (buf : List UInt8) : Nat → Walk → List Access × Option (Option (List Int16 × UInt32))
  | 0, _ => ([], none)
  | n + 1, w =>
    let accesses := (readChunk buf w).1
    match (readChunk buf w).2 with
    | .next w' => (accesses ++ (walk buf n w').1, (walk buf n w').2)
    | .refused => (accesses, some none)
    | .data dataOff dataBytes =>
      (accesses ++ (finish buf w dataOff dataBytes).1, some (finish buf w dataOff dataBytes).2)
    | .exhausted => (accesses ++ (finish buf w 0 0).1, some (finish buf w 0 0).2)

/-- Of a file with these bytes. A result is the samples and the rate. Without one no samples are returned and the rate
is left alone. -/
def readWavFile (fuel : Nat) (buf : List UInt8) : List Access × Option (Option (List Int16 × UInt32)) :=
  if buf.length < 44 then ([], some none)
  else if bytesAt buf 0 4 ≠ ascii "RIFF" then ([⟨0, 4, buf.length⟩], some none)
  else if bytesAt buf 8 4 ≠ ascii "WAVE" then ([⟨0, 4, buf.length⟩, ⟨8, 4, buf.length⟩], some none)
  else ([⟨0, 4, buf.length⟩, ⟨8, 4, buf.length⟩] ++ (walk buf fuel {}).1, (walk buf fuel {}).2)

/-! ### What is written reads back -/

/-- The header of `make_wav`, byte by byte. -/
def header (riffPayload rate byteRate dataBytes : UInt32) : List UInt8 :=
  [82, 73, 70, 70] ++ bytes32 riffPayload ++ [87, 65, 86, 69, 102, 109, 116, 32, 16, 0, 0, 0, 1, 0, 1, 0] ++
    bytes32 rate ++ bytes32 byteRate ++ [2, 0, 16, 0, 100, 97, 116, 97] ++ bytes32 dataBytes

lemma makeWav_eq {samples : List Int16} (h : 44 + 2 * samples.length < 2 ^ 32) (rate : UInt32) :
    makeWav samples rate =
      header (4 + 8 + 16 + 8 + UInt32.ofNat samples.length * 2) rate (rate * 1 * 2)
        (UInt32.ofNat samples.length * 2) ++ encode samples := by
  have hbytes : (UInt32.ofNat samples.length * 2).toNat = 2 * samples.length := by
    simp
    omega
  have htake : (encode samples).take (UInt32.ofNat samples.length * 2).toNat = encode samples := by
    rw [hbytes, ← length_encode, List.take_length]
  simp only [makeWav, htake]
  rfl

lemma readChunk_format (riffPayload rate byteRate dataBytes : UInt32) (data : List UInt8) :
    (readChunk (header riffPayload rate byteRate dataBytes ++ data) {}).2 = .next ⟨36, 1, 16, rate⟩ := by
  have hrate : readU32le (header riffPayload rate byteRate dataBytes ++ data) 24 = rate := word32_bytes rate
  have hlength : (header riffPayload rate byteRate dataBytes ++ data).length = 44 + data.length := by
    simp only [header, List.length_append, bytes32, List.length_cons, List.length_nil]
  have htag : bytesAt (header riffPayload rate byteRate dataBytes ++ data) 12 4 = ascii "fmt " := rfl
  have hfields : readU32le (header riffPayload rate byteRate dataBytes ++ data) 16 = 16 ∧
      readU16le (header riffPayload rate byteRate dataBytes ++ data) 20 = 1 ∧
      readU16le (header riffPayload rate byteRate dataBytes ++ data) 22 = 1 ∧
      readU16le (header riffPayload rate byteRate dataBytes ++ data) 34 = 16 :=
    ⟨word32_bytes 16, word16_bytes 1, word16_bytes 1, word16_bytes 16⟩
  have hstep : step 16 = 24 := by decide
  simp [readChunk, hlength, htag, hfields, hrate, hstep, show ¬44 + data.length < 20 by omega,
    show ¬44 + data.length < 36 by omega]

lemma readChunk_data (riffPayload rate byteRate dataBytes : UInt32) (data : List UInt8) :
    (readChunk (header riffPayload rate byteRate dataBytes ++ data) ⟨36, 1, 16, rate⟩).2 =
      .data 44 dataBytes.toNat := by
  have hdata : readU32le (header riffPayload rate byteRate dataBytes ++ data) 40 = dataBytes := word32_bytes dataBytes
  have hlength : (header riffPayload rate byteRate dataBytes ++ data).length = 44 + data.length := by
    simp only [header, List.length_append, bytes32, List.length_cons, List.length_nil]
  have htag : bytesAt (header riffPayload rate byteRate dataBytes ++ data) 36 4 = ascii "data" := rfl
  have hother : ascii "data" ≠ ascii "fmt " := by decide
  simp [readChunk, hlength, htag, hother, hdata, show ¬44 + data.length < 44 by omega]

/-- What `make_wav` writes is read back as it was. -/
theorem readWavFile_makeWav {samples : List Int16} (hlength : 44 + 2 * samples.length < 2 ^ 32) {rate : UInt32}
    (hrate : 0 < rate) (fuel : Nat) :
    (readWavFile (fuel + 2) (makeWav samples rate)).2 = some (some (samples, rate)) := by
  have hbytes : (UInt32.ofNat samples.length * 2).toNat = (encode samples).length := by
    rw [length_encode]
    simp
    omega
  rw [makeWav_eq hlength]
  generalize 4 + 8 + 16 + 8 + UInt32.ofNat samples.length * 2 = riffPayload
  generalize rate * 1 * 2 = byteRate
  generalize UInt32.ofNat samples.length * 2 = dataBytes at hbytes
  have hsize : (header riffPayload rate byteRate dataBytes ++ encode samples).length =
      44 + (encode samples).length := by
    simp only [header, List.length_append, bytes32, List.length_cons, List.length_nil]
  have hdata : bytesAt (header riffPayload rate byteRate dataBytes ++ encode samples) 44 (encode samples).length =
      encode samples := List.take_length
  have hriff : bytesAt (header riffPayload rate byteRate dataBytes ++ encode samples) 0 4 = ascii "RIFF" := rfl
  have hwave : bytesAt (header riffPayload rate byteRate dataBytes ++ encode samples) 8 4 = ascii "WAVE" := rfl
  have hne : rate ≠ 0 := fun h => absurd hrate (by simp [h])
  simp [readWavFile, walk, readChunk_format, readChunk_data, hsize, hriff, hwave, finish, hdata, hbytes, decode_encode,
    hne, show ¬44 + (encode samples).length < 44 by omega]

theorem readWavFile_makeWav_two : (readWavFile 2 (makeWav [1, -2] 16000)).2 = some (some ([1, -2], 16000)) :=
  readWavFile_makeWav (by decide) (by decide) 0

end Wav

end Acva
