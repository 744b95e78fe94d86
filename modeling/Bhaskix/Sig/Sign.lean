import Bhaskix.Sig.SlhDsa

namespace Bhaskix.Sig

open Library

variable {sha : Sha}

section

variable (sha)

def hmacSha256 (key first : Bytes) (rest : List Bytes) : { digest : Bytes // digest.length = 32 } :=
  let key := if key.length > 64 then (sha.finish (sha.update sha.new key)).val else key
  let padded := key ++ List.replicate (64 - key.length) 0
  let inner := sha.finish (rest.foldl sha.update
    (sha.update (sha.update sha.new (padded.map (· ^^^ 0x36))) first))
  sha.finish (sha.update (sha.update sha.new (padded.map (· ^^^ 0x5c))) inner.val)

def prfMsg (skPrf optRand : Bytes) (message : List Bytes) : Node :=
  trunc (hmacSha256 sha skPrf optRand message)

end

def prf (tweak : Tweak sha) (skSeed : Bytes) (adrs : Adrs) : Node := tweak.hash adrs [skSeed]

def wotsPrfAdrs (adrs : Adrs) : Adrs :=
  (adrs.setTypeAndClear .wotsPrf).setKeyPairAddress adrs.keyPairAddress

/-- The loop of `wots_pkGen` and `wots_sign`: each chain from its secret, as far as its digit
says. -/
def wotsChains (tweak : Tweak sha) (skSeed : Bytes) (digit : Nat → Nat) (adrs : Adrs) :
    Bytes × Adrs × Adrs :=
  collect (fun i (state : Adrs × Adrs) =>
    let skAdrs := state.1.setWord2 i
    let sk := prf tweak skSeed skAdrs
    let (value, adrs) := chain tweak sk.val 0 (digit i) (state.2.setWord2 i)
    (value, skAdrs, adrs)) len (wotsPrfAdrs adrs, adrs)

def wotsPkGen (tweak : Tweak sha) (skSeed : Bytes) (adrs : Adrs) : Node :=
  let (tmp, _, adrs) := wotsChains tweak skSeed (fun _ => W - 1) adrs
  tweak.t (wotsPkAdrs adrs) tmp

def wotsSign (tweak : Tweak sha) (message : Node) (skSeed : Bytes) (adrs : Adrs) : Bytes :=
  let digits := wotsDigits message
  (wotsChains tweak skSeed (fun i => digits.getD i 0) adrs).1

def xmssNode (tweak : Tweak sha) (skSeed : Bytes) (adrs : Adrs) : Nat → Nat → Node
  | 0, i => wotsPkGen tweak skSeed ((adrs.setTypeAndClear .wotsHash).setKeyPairAddress i)
  | z + 1, i =>
    tweak.h (((adrs.setTypeAndClear .tree).setWord2 (z + 1)).setWord3 i)
      (xmssNode tweak skSeed adrs z (2 * i)).val (xmssNode tweak skSeed adrs z (2 * i + 1)).val

def xmssSign (tweak : Tweak sha) (message : Node) (skSeed : Bytes) (idx : Nat) (adrs : Adrs) :
    Bytes :=
  let auth := (List.range hPrime).flatMap fun j =>
    (xmssNode tweak skSeed adrs j ((idx >>> j) ^^^ 1)).val
  let adrs := (adrs.setTypeAndClear .wotsHash).setKeyPairAddress idx
  wotsSign tweak message skSeed adrs ++ auth

/-- What one layer adds to a hypertree signature, and the root the layer above signs, which the
last layer does not work out. -/
def htSignStep (tweak : Tweak sha) (skSeed : Bytes) (j : Nat) (state : Node × Nat × Adrs) :
    Bytes × Node × Nat × Adrs :=
  let (root, tree, adrs) := state
  let leaf := tree % 2 ^ hPrime
  let tree := tree >>> hPrime
  let adrs := (adrs.setLayerAddress j).setTreeAddress tree
  let sigTmp := xmssSign tweak root skSeed leaf adrs
  let root := if j < layers - 1 then (xmssPkFromSig tweak leaf sigTmp root adrs).1 else root
  (sigTmp, root, tree, adrs)

def htSign (tweak : Tweak sha) (message : Node) (skSeed : Bytes) (idxTree idxLeaf : Nat) : Bytes :=
  let adrs := Adrs.new.setTreeAddress idxTree
  let sigTmp := xmssSign tweak message skSeed idxLeaf adrs
  let root := (xmssPkFromSig tweak idxLeaf sigTmp message adrs).1
  sigTmp ++ (collect (fun j => htSignStep tweak skSeed (j + 1)) (layers - 1)
    (root, idxTree, adrs)).1

def forsSkGen (tweak : Tweak sha) (skSeed : Bytes) (adrs : Adrs) (idx : Nat) : Node :=
  prf tweak skSeed
    (((adrs.setTypeAndClear .forsPrf).setKeyPairAddress adrs.keyPairAddress).setWord3 idx)

/-- The root of the subtree of a height at an index counted across all the trees. -/
def forsNode (tweak : Tweak sha) (skSeed : Bytes) (adrs : Adrs) : Nat → Nat → Node
  | 0, i => tweak.f ((adrs.setWord2 0).setWord3 i) (forsSkGen tweak skSeed adrs i).val
  | z + 1, i =>
    tweak.h ((adrs.setWord2 (z + 1)).setWord3 i) (forsNode tweak skSeed adrs z (2 * i)).val
      (forsNode tweak skSeed adrs z (2 * i + 1)).val

theorem mdBytes_enough (md : { md : Bytes // md.length = mdBytes }) :
    K * A + 8 * 0 ≤ 8 * md.val.length + 0 := by
  rw [md.property]
  decide

def forsSign (tweak : Tweak sha) (md : { md : Bytes // md.length = mdBytes }) (skSeed : Bytes)
    (adrs : Adrs) : Bytes :=
  let indices := base2b md.val A K 0 0 0 (mdBytes_enough md)
  (List.range K).flatMap fun i =>
    let index := indices.getD i 0
    (forsSkGen tweak skSeed adrs (i <<< A + index)).val ++
      (List.range A).flatMap fun j =>
        (forsNode tweak skSeed adrs j (i <<< (A - j) + ((index >>> j) ^^^ 1))).val

variable (sha)

def keygenInternal (skSeed skPrf pkSeed : Node) : Bytes × Bytes :=
  let tweak : Tweak sha := .new pkSeed.val
  let adrs := Adrs.new.setLayerAddress (layers - 1)
  let pkRoot := xmssNode tweak skSeed.val adrs hPrime 0
  (skSeed.val ++ skPrf.val ++ pkSeed.val ++ pkRoot.val, pkSeed.val ++ pkRoot.val)

def signInternal (message : List Bytes) (sk : Bytes) (addrnd : Option Node) : Bytes :=
  let skSeed := sk.take N
  let skPrf := (sk.drop N).take N
  let pk := (sk.drop N).drop N
  let pkSeed := pk.take N
  let pkRoot := pk.drop N
  let tweak : Tweak sha := .new pkSeed
  let r := prfMsg sha skPrf (addrnd.elim pkSeed Subtype.val) message
  let digest := splitDigest (hMsg sha r.val pkSeed pkRoot message)
  let sigFors := forsSign tweak digest.1 skSeed (forsAdrs digest.2.1 digest.2.2)
  let pkFors := forsPkFromSig tweak sigFors digest.1 (forsAdrs digest.2.1 digest.2.2)
  r.val ++ (sigFors ++ htSign tweak pkFors skSeed digest.2.1 digest.2.2)

def sign (message context sk : Bytes) (addrnd : Option Node) : Except Refusal Bytes :=
  if 255 < context.length then .error .contextTooLong
  else .ok (signInternal sha (framed message context) sk addrnd)

end Bhaskix.Sig
