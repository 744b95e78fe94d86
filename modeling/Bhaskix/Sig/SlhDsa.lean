import Bhaskix.Library.Merkle

/-!
SLH-DSA-SHA2-128s, the verifier. The hash is whatever is given: a state that bytes are added to and
that a digest of 32 bytes is read from.
-/

namespace Bhaskix.Sig

open Library

abbrev Bytes := List UInt8

structure Sha where
  State : Type
  new : State
  update : State → Bytes → State
  finish : State → { digest : Bytes // digest.length = 32 }

def Sha.ofFunction (hash : Bytes → { digest : Bytes // digest.length = 32 }) : Sha where
  State := Bytes
  new := []
  update added bytes := added ++ bytes
  finish := hash

abbrev N : Nat := 16
abbrev height : Nat := 63
abbrev layers : Nat := 7
abbrev hPrime : Nat := 9
abbrev A : Nat := 12
abbrev K : Nat := 14
abbrev lgW : Nat := 4
abbrev M : Nat := 30
abbrev W : Nat := 16
abbrev len1 : Nat := 32
abbrev len2 : Nat := 3
abbrev len : Nat := len1 + len2
abbrev forsBytes : Nat := K * (1 + A) * N
abbrev xmssBytes : Nat := (hPrime + len) * N
abbrev signatureBytes : Nat := (1 + K * (1 + A) + height + layers * len) * N
abbrev mdBytes : Nat := 21
abbrev treeBytes : Nat := 7

inductive Refusal
  | wrongLength
  | contextTooLong
  | mismatch
  deriving DecidableEq, Repr

inductive AddressKind
  | wotsHash
  | wotsPk
  | tree
  | forsTree
  | forsRoots
  | wotsPrf
  | forsPrf
  deriving DecidableEq, Repr

def AddressKind.byte : AddressKind → UInt8
  | wotsHash => 0
  | wotsPk => 1
  | tree => 2
  | forsTree => 3
  | forsRoots => 4
  | wotsPrf => 5
  | forsPrf => 6

/-- The layer, the tree, the kind and three words, of one, eight, one and four bytes; every number
is below its width. -/
structure Adrs where
  layer : Nat
  tree : Nat
  kind : AddressKind
  word1 : Nat
  word2 : Nat
  word3 : Nat
  deriving DecidableEq, Repr

def beBytes : Nat → Nat → Bytes
  | 0, _ => []
  | width + 1, value => UInt8.ofNat (value >>> (8 * width)) :: beBytes width value

theorem length_beBytes (width value : Nat) : (beBytes width value).length = width := by
  induction width with
  | zero => rfl
  | succ width ih => rw [beBytes, List.length_cons, ih]

namespace Adrs

def new : Adrs := ⟨0, 0, .wotsHash, 0, 0, 0⟩

variable (adrs : Adrs)

def bytes : Bytes :=
  beBytes 1 adrs.layer ++ beBytes 8 adrs.tree ++ [adrs.kind.byte] ++ beBytes 4 adrs.word1 ++
    beBytes 4 adrs.word2 ++ beBytes 4 adrs.word3

def setLayerAddress (layer : Nat) : Adrs := { adrs with layer := layer }

def setTreeAddress (tree : Nat) : Adrs := { adrs with tree := tree }

def setTypeAndClear (kind : AddressKind) : Adrs :=
  { adrs with kind := kind, word1 := 0, word2 := 0, word3 := 0 }

def setKeyPairAddress (index : Nat) : Adrs := { adrs with word1 := index }

def keyPairAddress : Nat := adrs.word1

def setWord2 (value : Nat) : Adrs := { adrs with word2 := value }

def setWord3 (value : Nat) : Adrs := { adrs with word3 := value }

def treeIndex : Nat := adrs.word3

end Adrs

section

variable (sha : Sha)

abbrev Node := { value : Bytes // value.length = N }

def trunc (digest : { digest : Bytes // digest.length = 32 }) : Node :=
  ⟨digest.val.take N, by rw [List.length_take, digest.property]; rfl⟩

abbrev Tweak := sha.State

variable {sha}

def Tweak.new (pkSeed : Bytes) : Tweak sha :=
  sha.update (sha.update sha.new pkSeed) (List.replicate (64 - N) 0)

def Tweak.hash (tweak : Tweak sha) (adrs : Adrs) (parts : List Bytes) : Node :=
  trunc (sha.finish (parts.foldl sha.update (sha.update tweak adrs.bytes)))

def Tweak.f (tweak : Tweak sha) (adrs : Adrs) (value : Bytes) : Node := tweak.hash adrs [value]

def Tweak.h (tweak : Tweak sha) (adrs : Adrs) (left right : Bytes) : Node :=
  tweak.hash adrs [left, right]

def Tweak.t (tweak : Tweak sha) (adrs : Adrs) (values : Bytes) : Node := tweak.hash adrs [values]

variable (sha)

/-- `H_msg`: the message's parts are hashed where they lie, and the first block of MGF1 is all of
it. -/
def hMsg (r pkSeed pkRoot : Bytes) (message : List Bytes) :
    { digest : Bytes // digest.length = M } :=
  let inner := sha.finish
    (message.foldl sha.update (sha.update (sha.update (sha.update sha.new r) pkSeed) pkRoot))
  let block := sha.finish (sha.update
    (sha.update (sha.update (sha.update sha.new r) pkSeed) inner.val) (beBytes 4 0))
  ⟨block.val.take M, by rw [List.length_take, block.property]; rfl⟩

end

def toInt (bytes : Bytes) : Nat := bytes.foldl (fun total byte => (total <<< 8) ||| byte.toNat) 0

/-- The first `out` digits of `b` bits from the place `input` on, with `bits` bits of `total` still
to be read out. -/
def base2b (x : Bytes) (b : Nat) (out input bits total : Nat)
    (enough : out * b + 8 * input ≤ 8 * x.length + bits) : List Nat :=
  match out with
  | 0 => []
  | out + 1 =>
    if short : bits < b then
      have inside : input < x.length := by
        rw [Nat.succ_mul] at enough
        omega
      base2b x b (out + 1) (input + 1) (bits + 8) ((total <<< 8) ||| x[input].toNat) (by omega)
    else
      (total >>> (bits - b)) % 2 ^ b ::
        base2b x b out input (bits - b) (total % 2 ^ (bits - b)) (by
          rw [Nat.succ_mul] at enough
          omega)
termination_by (out, b - bits)

section

variable {sha : Sha}

def chain (tweak : Tweak sha) (x : Bytes) (start : Nat) : Nat → Adrs → Bytes × Adrs
  | 0, adrs => (x, adrs)
  | steps + 1, adrs =>
    let adrs := adrs.setWord3 start
    chain tweak (tweak.f adrs x).val (start + 1) steps adrs

end

def wotsDigits (message : Node) : List Nat :=
  let msg := base2b message.val lgW len1 0 0 0 (by rw [message.property]; decide)
  let csum := (msg.map fun digit => W - 1 - digit).sum <<< ((8 - (len2 * lgW) % 8) % 8)
  msg ++ base2b (beBytes 2 csum) lgW len2 0 0 0 (by rw [length_beBytes]; decide)

section

variable {sha : Sha}

def wotsPkAdrs (adrs : Adrs) : Adrs :=
  (adrs.setTypeAndClear .wotsPk).setKeyPairAddress adrs.keyPairAddress

def wotsPkFromSig (tweak : Tweak sha) (sig : Bytes) (message : Node) (adrs : Adrs) : Node :=
  let digits := wotsDigits message
  let (tmp, adrs) := collect (fun i adrs =>
    chain tweak (slice sig (i * N) ((i + 1) * N)) (digits.getD i 0) (W - 1 - digits.getD i 0)
      (adrs.setWord2 i)) len adrs
  tweak.t (wotsPkAdrs adrs) tmp

def climbStep (tweak : Tweak sha) (index : Nat) (auth : Bytes) (state : Node × Adrs) (k : Nat) :
    Node × Adrs :=
  let (node, adrs) := state
  let adrs := adrs.setWord2 (k + 1)
  let sibling := slice auth (k * N) ((k + 1) * N)
  if (index >>> k) % 2 = 0 then
    let adrs := adrs.setWord3 (adrs.treeIndex / 2)
    (tweak.h adrs node.val sibling, adrs)
  else
    let adrs := adrs.setWord3 ((adrs.treeIndex - 1) / 2)
    (tweak.h adrs sibling node.val, adrs)

def climb (tweak : Tweak sha) (node : Node) (index : Nat) (auth : Bytes) (height : Nat)
    (adrs : Adrs) : Node × Adrs :=
  (List.range height).foldl (climbStep tweak index auth) (node, adrs)

def xmssPkFromSig (tweak : Tweak sha) (idx : Nat) (sigXmss : Bytes) (message : Node) (adrs : Adrs) :
    Node × Adrs :=
  let adrs := (adrs.setTypeAndClear .wotsHash).setKeyPairAddress idx
  let node := wotsPkFromSig tweak (sigXmss.take (len * N)) message adrs
  let adrs := (adrs.setTypeAndClear .tree).setWord3 idx
  climb tweak node idx (sigXmss.drop (len * N)) hPrime adrs

/-- The node a layer's signature leads to, the tree above it, and the address, from the layer
below's. -/
def htStep (tweak : Tweak sha) (sigHt : Bytes) (state : Node × Nat × Adrs) (j : Nat) :
    Node × Nat × Adrs :=
  let (node, tree, adrs) := state
  let leaf := tree % 2 ^ hPrime
  let tree := tree >>> hPrime
  let adrs := (adrs.setLayerAddress j).setTreeAddress tree
  let (node, adrs) := xmssPkFromSig tweak leaf
    (slice sigHt (j * xmssBytes) ((j + 1) * xmssBytes)) node adrs
  (node, tree, adrs)

def htVerify (tweak : Tweak sha) (message : Node) (sigHt : Bytes) (idxTree idxLeaf : Nat)
    (pkRoot : Bytes) : Bool :=
  let adrs := Adrs.new.setTreeAddress idxTree
  let (node, adrs) := xmssPkFromSig tweak idxLeaf (sigHt.take xmssBytes) message adrs
  let (node, _, _) := (List.range' 1 (layers - 1)).foldl (htStep tweak sigHt) (node, idxTree, adrs)
  node.val == pkRoot

def forsPkFromSig (tweak : Tweak sha) (sigFors : Bytes) (md : { md : Bytes // md.length = mdBytes })
    (adrs : Adrs) : Node :=
  let indices := base2b md.val A K 0 0 0 (by rw [md.property]; decide)
  let (roots, adrs) := collect (fun i adrs =>
    let index := indices.getD i 0
    let tree := slice sigFors (i * ((A + 1) * N)) ((i + 1) * ((A + 1) * N))
    let adrs := (adrs.setWord2 0).setWord3 (i * 2 ^ A + index)
    let leaf := tweak.f adrs (tree.take N)
    let (root, adrs) := climb tweak leaf index (tree.drop N) A adrs
    (root.val, adrs)) K adrs
  tweak.t ((adrs.setTypeAndClear .forsRoots).setKeyPairAddress adrs.keyPairAddress) roots

def splitDigest (digest : { digest : Bytes // digest.length = M }) :
    { md : Bytes // md.length = mdBytes } × Nat × Nat :=
  (⟨digest.val.take mdBytes, by rw [List.length_take, digest.property]; rfl⟩,
    toInt ((digest.val.drop mdBytes).take treeBytes) % 2 ^ (height - height / layers),
    toInt ((digest.val.drop mdBytes).drop treeBytes) % 2 ^ (height / layers))

def forsAdrs (idxTree idxLeaf : Nat) : Adrs :=
  ((Adrs.new.setTreeAddress idxTree).setTypeAndClear .forsTree).setKeyPairAddress idxLeaf

variable (sha)

def verifyInternal (message : List Bytes) (signature : Bytes) (publicKey : Bytes) :
    Except Refusal Unit :=
  if signature.length ≠ signatureBytes then .error .wrongLength
  else
    let pkSeed := publicKey.take N
    let pkRoot := publicKey.drop N
    let tweak : Tweak sha := .new pkSeed
    let r := signature.take N
    let rest := signature.drop N
    let sigFors := rest.take forsBytes
    let sigHt := rest.drop forsBytes
    let digest := splitDigest (hMsg sha r pkSeed pkRoot message)
    let pkFors := forsPkFromSig tweak sigFors digest.1 (forsAdrs digest.2.1 digest.2.2)
    if htVerify tweak pkFors sigHt digest.2.1 digest.2.2 pkRoot then .ok () else .error .mismatch

def framed (message context : Bytes) : List Bytes :=
  [[0, UInt8.ofNat context.length], context, message]

def verify (message signature context : Bytes) (publicKey : Bytes) : Except Refusal Unit :=
  if 255 < context.length then .error .contextTooLong
  else verifyInternal sha (framed message context) signature publicKey

end

end Bhaskix.Sig
