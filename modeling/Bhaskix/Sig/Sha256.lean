import Bhaskix.Library.Blocks
import Bhaskix.Sig.SlhDsa

/-! SHA-256 over a message that comes in pieces. -/

namespace Bhaskix.Sig

open Library

structure Words where
  a : UInt32
  b : UInt32
  c : UInt32
  d : UInt32
  e : UInt32
  f : UInt32
  g : UInt32
  h : UInt32
  deriving DecidableEq

namespace Words

def k : List UInt32 :=
  [0x428a2f98, 0x71374491, 0xb5c0fbcf, 0xe9b5dba5, 0x3956c25b, 0x59f111f1, 0x923f82a4, 0xab1c5ed5,
    0xd807aa98, 0x12835b01, 0x243185be, 0x550c7dc3, 0x72be5d74, 0x80deb1fe, 0x9bdc06a7, 0xc19bf174,
    0xe49b69c1, 0xefbe4786, 0x0fc19dc6, 0x240ca1cc, 0x2de92c6f, 0x4a7484aa, 0x5cb0a9dc, 0x76f988da,
    0x983e5152, 0xa831c66d, 0xb00327c8, 0xbf597fc7, 0xc6e00bf3, 0xd5a79147, 0x06ca6351, 0x14292967,
    0x27b70a85, 0x2e1b2138, 0x4d2c6dfc, 0x53380d13, 0x650a7354, 0x766a0abb, 0x81c2c92e, 0x92722c85,
    0xa2bfe8a1, 0xa81a664b, 0xc24b8b70, 0xc76c51a3, 0xd192e819, 0xd6990624, 0xf40e3585, 0x106aa070,
    0x19a4c116, 0x1e376c08, 0x2748774c, 0x34b0bcb5, 0x391c0cb3, 0x4ed8aa4a, 0x5b9cca4f, 0x682e6ff3,
    0x748f82ee, 0x78a5636f, 0x84c87814, 0x8cc70208, 0x90befffa, 0xa4506ceb, 0xbef9a3f7, 0xc67178f2]

def h0 : Words :=
  ⟨0x6a09e667, 0xbb67ae85, 0x3c6ef372, 0xa54ff53a, 0x510e527f, 0x9b05688c, 0x1f83d9ab, 0x5be0cd19⟩

def rotateRight (word : UInt32) (count : UInt32) : UInt32 :=
  word >>> count ||| word <<< (32 - count)

def fromBeBytes : Bytes → List UInt32
  | a :: b :: c :: d :: rest =>
    (a.toUInt32 <<< 24 ||| b.toUInt32 <<< 16 ||| c.toUInt32 <<< 8 ||| d.toUInt32) ::
      fromBeBytes rest
  | _ => []

/-- One more word of the schedule. -/
def expand (words : List UInt32) : List UInt32 :=
  let back (count : Nat) := words.getD (words.length - count) 0
  let s0 := rotateRight (back 15) 7 ^^^ rotateRight (back 15) 18 ^^^ back 15 >>> 3
  let s1 := rotateRight (back 2) 17 ^^^ rotateRight (back 2) 19 ^^^ back 2 >>> 10
  words ++ [back 16 + s0 + back 7 + s1]

def round (words : Words) (added : UInt32 × UInt32) : Words :=
  let ⟨a, b, c, d, e, f, g, h⟩ := words
  let s1 := rotateRight e 6 ^^^ rotateRight e 11 ^^^ rotateRight e 25
  let ch := e &&& f ^^^ ~~~e &&& g
  let temp1 := h + s1 + ch + added.1 + added.2
  let s0 := rotateRight a 2 ^^^ rotateRight a 13 ^^^ rotateRight a 22
  let maj := a &&& b ^^^ a &&& c ^^^ b &&& c
  ⟨temp1 + (s0 + maj), a, b, c, d + temp1, e, f, g⟩

def compress (state : Words) (block : Bytes) : Words :=
  let schedule := expand^[48] (fromBeBytes block)
  let last := (k.zip schedule).foldl round state
  ⟨state.a + last.a, state.b + last.b, state.c + last.c, state.d + last.d, state.e + last.e,
    state.f + last.f, state.g + last.g, state.h + last.h⟩

def toBytes (words : Words) : Bytes :=
  [words.a, words.b, words.c, words.d, words.e, words.f, words.g, words.h].flatMap fun word =>
    beBytes 4 word.toNat

theorem length_toBytes (words : Words) : words.toBytes.length = 32 := by
  simp [toBytes, beBytes]

end Words

/-- `buffer` is what is real of the source's. -/
structure Sha256 where
  state : Words
  buffer : Bytes
  length : UInt64
  deriving DecidableEq

namespace Sha256

open Words

def new : Sha256 :=
  ⟨h0, [], 0⟩

/-- The loop over whole blocks, so many of them. -/
def compressBlocks : Nat → Words → Bytes → Words × Bytes
  | 0, state, rest => (state, rest)
  | count + 1, state, rest => compressBlocks count (compress state (rest.take 64)) (rest.drop 64)

def absorb (sha : Sha256) (rest : Bytes) : Sha256 :=
  let (state, buffer) := compressBlocks (rest.length / 64) sha.state rest
  { sha with state, buffer }

def update (sha : Sha256) (bytes : Bytes) : Sha256 :=
  let length := sha.length + UInt64.ofNat bytes.length
  if sha.buffer = [] then { sha with length }.absorb bytes
  else
    let take := min bytes.length (64 - sha.buffer.length)
    let buffer := sha.buffer ++ bytes.take take
    let topped : Sha256 :=
      if buffer.length = 64 then ⟨compress sha.state buffer, [], length⟩
      else ⟨sha.state, buffer, length⟩
    if bytes.drop take = [] then topped else topped.absorb (bytes.drop take)

/-- The loop that pads, in so many turns at most. -/
def pad : Nat → Sha256 → Option Sha256
  | 0, _ => none
  | turns + 1, sha => if sha.buffer.length = 56 then some sha else pad turns (sha.update [0])

def finish (turns : Nat) (sha : Sha256) : Option Bytes :=
  (pad turns (sha.update [0x80])).map fun padded =>
    (compress padded.state (padded.buffer ++ beBytes 8 (sha.length * 8).toNat)).toBytes

end Sha256

/-- The zeros between the `0x80` and the length. -/
def zeros (length : Nat) : Nat :=
  (119 - length % 64) % 64

def padded (message : Bytes) : Bytes :=
  message ++ 0x80 :: List.replicate (zeros message.length) 0 ++ beBytes 8 (8 * message.length)

/-- The digest of FIPS 180-4. -/
def digest (message : Bytes) : Bytes :=
  ((blocks 64 (padded message)).foldl Words.compress Words.h0).toBytes

namespace Sha256

open Words

/-- What has been hashed of a message, and what waits. -/
structure Absorbed (message : Bytes) (sha : Sha256) : Prop where
  split : ∃ whole, message = whole ++ sha.buffer ∧ 64 ∣ whole.length ∧
    sha.state = (blocks 64 whole).foldl compress h0
  short : sha.buffer.length < 64
  length : sha.length = UInt64.ofNat message.length

variable {sha : Sha256} {message : Bytes}

theorem Absorbed.buffered (absorbed : Absorbed message sha) :
    sha.buffer.length = message.length % 64 := by
  obtain ⟨whole, same, full, _⟩ := absorbed.split
  have short := absorbed.short
  rw [same, List.length_append]
  omega

theorem compressBlocks_eq (state : Words) (rest : Bytes) (room : 64 * count ≤ rest.length) :
    compressBlocks count state rest =
      ((blocks 64 (rest.take (64 * count))).foldl compress state, rest.drop (64 * count)) := by
  induction count generalizing state rest with
  | zero => simp [compressBlocks, blocks]
  | succ count ih =>
    have first : (rest.take 64).length = 64 := by
      rw [List.length_take]
      omega
    have cut : rest.take (64 * (count + 1)) = rest.take 64 ++ (rest.drop 64).take (64 * count) := by
      rw [Nat.mul_succ, Nat.add_comm, List.take_add]
    rw [compressBlocks, ih _ _ (by rw [List.length_drop]; omega), cut,
      blocks_cons (by decide) first,
      List.foldl_cons, List.drop_drop, Nat.mul_succ, Nat.add_comm 64]

theorem absorb_nil (state : Words) (length : UInt64) :
    absorb ⟨state, [], length⟩ [] = ⟨state, [], length⟩ := rfl

theorem Absorbed.absorb {state : Words} {length : UInt64}
    (absorbed : Absorbed message ⟨state, [], length⟩) (rest : Bytes)
    (total : later = UInt64.ofNat (message ++ rest).length) :
    Absorbed (message ++ rest) (absorb ⟨state, [], later⟩ rest) := by
  obtain ⟨whole, same, full, hashed⟩ := absorbed.split
  have room : 64 * (rest.length / 64) ≤ rest.length := Nat.mul_div_le _ _
  rw [Sha256.absorb, compressBlocks_eq state rest room]
  refine ⟨⟨whole ++ rest.take (64 * (rest.length / 64)), ?_, ?_, ?_⟩, ?_, total⟩
  · rw [same, List.append_nil, List.append_assoc, List.take_append_drop]
  · rw [List.length_append, List.length_take, min_eq_left room]
    exact Nat.dvd_add full (Nat.dvd_mul_right _ _)
  · rw [blocks_append (by decide) full, List.foldl_append, ← hashed]
  · rw [List.length_drop]
    omega

theorem Absorbed.update (absorbed : Absorbed message sha) (bytes : Bytes) :
    Absorbed (message ++ bytes) (sha.update bytes) := by
  have total : sha.length + UInt64.ofNat bytes.length = UInt64.ofNat (message ++ bytes).length := by
    rw [absorbed.length, List.length_append, UInt64.ofNat_add]
  obtain ⟨state, buffer, length⟩ := sha
  obtain ⟨whole, same, full, hashed⟩ := absorbed.split
  have short := absorbed.short
  unfold Sha256.update
  dsimp only at *
  split
  · next empty =>
    subst empty
    exact absorbed.absorb bytes total
  by_cases fits : bytes.length < 64 - buffer.length
  · -- All of it waits.
    rw [min_eq_left fits.le, List.take_length, List.drop_length, if_pos rfl,
      if_neg (by rw [List.length_append]; omega)]
    exact ⟨⟨whole, by rw [same, List.append_assoc], full, hashed⟩,
      by rw [List.length_append]; omega, total⟩
  · rw [min_eq_right (by omega)]
    generalize taken : bytes.take (64 - buffer.length) = first
    generalize left : bytes.drop (64 - buffer.length) = rest
    have block : (buffer ++ first).length = 64 := by
      rw [← taken, List.length_append, List.length_take]
      omega
    have cut : bytes = first ++ rest := by rw [← taken, ← left, List.take_append_drop]
    have topped : Absorbed (message ++ first)
        ⟨compress state (buffer ++ first), [], UInt64.ofNat (message ++ first).length⟩ := by
      refine ⟨⟨whole ++ (buffer ++ first), ?_, ?_, ?_⟩, Nat.zero_lt_succ _, rfl⟩
      · rw [same, List.append_assoc, List.append_nil]
      · rw [List.length_append, block]
        exact Nat.dvd_add full (Nat.dvd_refl _)
      · rw [foldl_blocks_append _ _ (by decide) full block, ← hashed]
    have all := topped.absorb rest rfl
    rw [List.append_assoc, ← cut, ← total] at all
    rw [if_pos block]
    split
    · next none => rwa [none, absorb_nil] at all
    · exact all

theorem Absorbed.pad (absorbed : Absorbed message sha) (fills : (message.length + count) % 64 = 56)
    (least : ∀ fewer < count, (message.length + fewer) % 64 ≠ 56) (enough : count < turns) :
    ∃ last, pad turns sha = some last ∧ Absorbed (message ++ List.replicate count 0) last := by
  induction count generalizing message sha turns with
  | zero =>
    obtain ⟨more, rfl⟩ := Nat.exists_eq_add_one.mpr enough
    refine ⟨sha, ?_, by simpa using absorbed⟩
    rw [Sha256.pad, if_pos (absorbed.buffered.trans fills)]
  | succ count ih =>
    obtain ⟨more, rfl⟩ := Nat.exists_eq_add_one.mpr (Nat.zero_lt_of_lt enough)
    have open_ := least 0 (Nat.succ_pos _)
    obtain ⟨last, padded, all⟩ := @ih _ _ more (absorbed.update [0])
      (by rw [List.length_append, List.length_singleton]; omega)
      (fun fewer few => by
        have later := least (fewer + 1) (Nat.succ_lt_succ few)
        rw [List.length_append, List.length_singleton]
        omega)
      (by omega)
    refine ⟨last, ?_, ?_⟩
    · rw [Sha256.pad, if_neg (absorbed.buffered.trans_ne open_), padded]
    · rwa [List.append_assoc, List.singleton_append, ← List.replicate_succ] at all

theorem isLeast_zeros (length : Nat) :
    IsLeast { count | 64 ∣ length + 9 + count } (zeros length) := by
  constructor
  · rw [Set.mem_ofPred_eq, zeros]
    omega
  · intro count divides
    rw [Set.mem_ofPred_eq] at divides
    rw [zeros]
    omega

theorem Absorbed.updates (absorbed : Absorbed message sha) (pieces : List Bytes) :
    Absorbed (message ++ pieces.flatten) (pieces.foldl Sha256.update sha) := by
  induction pieces generalizing message sha with
  | nil => simpa using absorbed
  | cons piece pieces ih => simpa using ih (absorbed.update piece)

theorem Absorbed.finish (absorbed : Absorbed message sha) (short : message.length < 2 ^ 61)
    (enough : 64 ≤ turns) : sha.finish turns = some (digest message) := by
  have bits : (sha.length * 8).toNat = 8 * message.length := by
    rw [absorbed.length, UInt64.toNat_mul, UInt64.toNat_ofNat']
    change message.length % 2 ^ 64 * 8 % 2 ^ 64 = _
    omega
  have one : (message ++ [(0x80 : UInt8)]).length = message.length + 1 := by simp
  have count : zeros message.length = (119 - message.length % 64) % 64 := rfl
  obtain ⟨last, padded, all⟩ := @Absorbed.pad _ _ (zeros message.length) turns
    (absorbed.update [0x80]) (by omega) (fun fewer few => by omega) (by omega)
  obtain ⟨whole, same, full, hashed⟩ := all.split
  have block : (last.buffer ++ beBytes 8 (8 * message.length)).length = 64 := by
    rw [List.length_append, all.buffered, length_beBytes, List.length_append, one,
      List.length_replicate]
    omega
  have laid : Sig.padded message = whole ++ (last.buffer ++ beBytes 8 (8 * message.length)) := by
    rw [Sig.padded, ← List.append_assoc, ← same]
    simp
  rw [Sha256.finish, padded, Option.map_some, bits, digest, laid,
    foldl_blocks_append _ _ (by decide) full block, hashed]

/-- The digest of a message is the same whatever pieces it comes in. -/
theorem absorbed_new : Absorbed [] new := ⟨⟨[], rfl, ⟨0, rfl⟩, rfl⟩, by decide, rfl⟩

theorem finish_eq_digest (pieces : List Bytes) (short : pieces.flatten.length < 2 ^ 61)
    (enough : 64 ≤ turns) : finish turns (pieces.foldl update new) = some (digest pieces.flatten) ∧
      IsLeast { count | 64 ∣ pieces.flatten.length + 9 + count } (zeros pieces.flatten.length) := by
  exact ⟨(absorbed_new.updates pieces).finish short enough, isLeast_zeros _⟩

theorem finish_eq_digest_abc :
    finish 64 ([[0x61], [], [0x62, 0x63]].foldl update new) = some (digest [0x61, 0x62, 0x63]) :=
  (finish_eq_digest [[0x61], [], [0x62, 0x63]] (by decide) le_rfl).1

end Sha256

/-- SHA-256 as the signer and the verifier are given it. -/
def sha256 : Sha where
  State := Sha256
  new := .new
  update := .update
  finish sha := ⟨(sha.finish 64).getD (digest []), by
    unfold Sha256.finish
    cases Sha256.pad 64 (sha.update [0x80]) with
    | none | some => exact Words.length_toBytes _⟩

theorem sha256_finish (pieces : List Bytes) (short : pieces.flatten.length < 2 ^ 61) :
    (sha256.finish (pieces.foldl sha256.update sha256.new)).val = digest pieces.flatten :=
  congrArg (Option.getD · _) ((Sha256.absorbed_new.updates pieces).finish short le_rfl)

example : digest [0x61, 0x62, 0x63] =
    [0xba, 0x78, 0x16, 0xbf, 0x8f, 0x01, 0xcf, 0xea, 0x41, 0x41, 0x40, 0xde, 0x5d, 0xae, 0x22, 0x23,
      0xb0, 0x03, 0x61, 0xa3, 0x96, 0x17, 0x7a, 0x9c, 0xb4, 0x10, 0xff, 0x61, 0xf2, 0x00, 0x15,
      0xad] := by
  decide +kernel

end Bhaskix.Sig
