import Bhaskix.Sig.Sha256
import Bhaskix.Sig.Sign

/-!
What the signer makes, the verifier accepts, whatever the hash is. A chain the signer stops at a
digit the verifier takes to its end; a path the signer writes leads to the root of its tree; and
each layer signs the root the verifier works out for the layer below.
-/

namespace Bhaskix.Sig

open Library List

variable {sha : Sha}

theorem base2b_lt (x : Bytes) (b out input bits total : Nat)
    (enough : out * b + 8 * input ≤ 8 * x.length + bits) :
    ∀ digit ∈ base2b x b out input bits total enough, digit < 2 ^ b := by
  fun_induction base2b x b out input bits total enough with
  | case1 => simp
  | case2 input bits total out _ _ _ _ ih => exact ih
  | case3 input bits total out _ _ _ ih =>
    intro digit member
    rcases mem_cons.mp member with rfl | later
    · exact Nat.mod_lt _ (Nat.two_pow_pos b)
    · exact ih digit later

theorem getD_wotsDigits_lt (message : Node) (i : Nat) : (wotsDigits message).getD i 0 < W := by
  rw [List.getD_eq_getElem?_getD]
  cases found : (wotsDigits message)[i]? with
  | none => decide
  | some digit =>
    rw [Option.getD_some]
    rcases mem_append.mp (mem_of_getElem? found) with part | part
    · exact base2b_lt _ _ _ _ _ _ _ digit part
    · exact base2b_lt _ _ _ _ _ _ _ digit part

structure Adrs.Alike (left right : Adrs) : Prop where
  layer : left.layer = right.layer
  tree : left.tree = right.tree
  kind : left.kind = right.kind
  word1 : left.word1 = right.word1

namespace Adrs.Alike

theorem refl (adrs : Adrs) : Alike adrs adrs := ⟨rfl, rfl, rfl, rfl⟩

variable {left right : Adrs}

section

variable (alike : Alike left right)
include alike

theorem setWord2 (value : Nat) :
    Alike (left.setWord2 value) right := { alike with }

theorem setWord3 (value : Nat) :
    Alike (left.setWord3 value) right := { alike with }

theorem setWords (second third : Nat) :
    (left.setWord2 second).setWord3 third = (right.setWord2 second).setWord3 third := by
  obtain ⟨layer, tree, kind, word1⟩ := alike
  simp only [Adrs.setWord2, Adrs.setWord3, layer, tree, kind, word1]

theorem wotsPkAdrs : wotsPkAdrs left = wotsPkAdrs right := by
  obtain ⟨layer, tree, _, word1⟩ := alike
  simp only [Sig.wotsPkAdrs, Adrs.setTypeAndClear, Adrs.setKeyPairAddress, Adrs.keyPairAddress,
    layer, tree, word1]

end

end Adrs.Alike

theorem Adrs.setTypeAndClear_of_site {left right : Adrs} (layer : left.layer = right.layer)
    (tree : left.tree = right.tree) (kind : AddressKind) :
    left.setTypeAndClear kind = right.setTypeAndClear kind := by
  simp only [Adrs.setTypeAndClear, layer, tree]

def wotsStep (tweak : Tweak sha) (adrs : Adrs) (i j : Nat) (value : Bytes) : Bytes :=
  (tweak.f ((adrs.setWord2 i).setWord3 j) value).val

def wotsSecret (tweak : Tweak sha) (skSeed : Bytes) (adrs : Adrs) (i : Nat) : Bytes :=
  (prf tweak skSeed ((wotsPrfAdrs adrs).setWord2 i)).val

section

variable (tweak : Tweak sha)
include tweak

theorem length_wotsSecret (skSeed : Bytes) (adrs : Adrs) (i : Nat) :
    (wotsSecret tweak skSeed adrs i).length = N := (prf tweak skSeed _).property

theorem chain_eq (i steps : Nat) {adrs : Adrs} (alike : adrs.Alike base) (second : adrs.word2 = i) :
    (chain tweak x start steps adrs).1 = chainFrom (wotsStep tweak base i) start steps x ∧
      (chain tweak x start steps adrs).2.Alike base := by
  induction steps generalizing start x adrs with
  | zero => exact ⟨rfl, alike⟩
  | succ steps ih =>
    have here : adrs.setWord3 start = (base.setWord2 i).setWord3 start := by
      rw [← alike.setWords, ← second]
      rfl
    rw [chain, chainFrom, wotsStep, ← here]
    exact ih (alike.setWord3 start) second

theorem wotsChains_eq (skSeed : Bytes) (digit : Nat → Nat) (adrs : Adrs) :
    (wotsChains tweak skSeed digit adrs).1 = (List.range len).flatMap (fun i =>
        chainFrom (wotsStep tweak adrs i) 0 (digit i) (wotsSecret tweak skSeed adrs i)) ∧
      (wotsChains tweak skSeed digit adrs).2.2.Alike adrs := by
  have loop := @collect_eq _ _ (fun i (state : Adrs × Adrs) =>
      let skAdrs := state.1.setWord2 i
      let sk := prf tweak skSeed skAdrs
      let made := chain tweak sk.val 0 (digit i) (state.2.setWord2 i)
      (made.1, skAdrs, made.2))
    (fun state => (∀ i, state.1.setWord2 i = (wotsPrfAdrs adrs).setWord2 i) ∧ state.2.Alike adrs)
    (fun i => chainFrom (wotsStep tweak adrs i) 0 (digit i) (wotsSecret tweak skSeed adrs i))
    (wotsPrfAdrs adrs, adrs) ⟨fun _ => rfl, .refl adrs⟩ len (by
      intro i _ state held
      obtain ⟨secrets, alike⟩ := held
      obtain ⟨value, after⟩ := chain_eq tweak i (digit i) (alike.setWord2 i) rfl
      refine ⟨?_, fun other => ?_, after⟩
      · rw [wotsSecret, ← secrets i]
        exact value
      · exact secrets other)
  exact ⟨loop.1, loop.2.2⟩

theorem length_chainFrom (adrs : Adrs) (i start steps : Nat) {x : Bytes}
    (sized : x.length = N) : (chainFrom (wotsStep tweak adrs i) start steps x).length = N := by
  induction steps generalizing start x with
  | zero => exact sized
  | succ steps ih => exact ih (start + 1) (tweak.f _ x).property

theorem length_wotsSign (message : Node) (skSeed : Bytes) (adrs : Adrs) :
    (wotsSign tweak message skSeed adrs).length = len * N := by
  rw [wotsSign, (wotsChains_eq ..).1]
  exact length_flatMap_blocks
    (fun i => length_chainFrom tweak adrs i 0 _ (length_wotsSecret tweak skSeed adrs i)) len

theorem wotsPkFromSig_wotsSign (message : Node) (skSeed : Bytes) (adrs : Adrs) :
    wotsPkFromSig tweak (wotsSign tweak message skSeed adrs) message adrs =
      wotsPkGen tweak skSeed adrs := by
  obtain ⟨signed, _⟩ := wotsChains_eq tweak skSeed (fun i => (wotsDigits message).getD i 0) adrs
  obtain ⟨ends, kept⟩ := wotsChains_eq tweak skSeed (fun _ => W - 1) adrs
  have loop := @collect_eq _ _ (fun i adrs' =>
      chain tweak (slice (wotsSign tweak message skSeed adrs) (i * N) ((i + 1) * N))
        ((wotsDigits message).getD i 0) (W - 1 - (wotsDigits message).getD i 0)
        (adrs'.setWord2 i))
    (fun state => state.Alike adrs)
    (fun i => chainFrom (wotsStep tweak adrs i) 0 (W - 1) (wotsSecret tweak skSeed adrs i))
    adrs (.refl adrs) len (by
      intro i below state alike
      have small := getD_wotsDigits_lt message i
      rw [wotsSign, signed, slice_flatMap (fun i => length_chainFrom tweak adrs i 0 _
        (length_wotsSecret tweak skSeed adrs i)) below]
      generalize (wotsDigits message).getD i 0 = digit at small ⊢
      obtain ⟨value, after⟩ := chain_eq tweak i (W - 1 - digit) (alike.setWord2 i) rfl
      refine ⟨value.trans ?_, after⟩
      have joined := chainFrom_add (wotsStep tweak adrs i) 0 digit (W - 1 - digit)
        (wotsSecret tweak skSeed adrs i)
      rw [Nat.zero_add, show digit + (W - 1 - digit) = W - 1 by omega] at joined
      exact joined)
  rw [wotsPkFromSig, wotsPkGen]
  dsimp only
  rw [loop.1, ends, loop.2.wotsPkAdrs, kept.wotsPkAdrs]

end

def treeJoin (tweak : Tweak sha) (base : Adrs) (z i : Nat) (left right : Node) : Node :=
  tweak.h ((base.setWord2 z).setWord3 i) left.val right.val

section

variable (tweak : Tweak sha)
include tweak

theorem climb_eq {base adrs : Adrs} (alike : adrs.Alike base)
    {index first : Nat} (place : adrs.word3 = first) {auth : Bytes} {siblings : Nat → Node}
    (node : Node) (height : Nat) (bits : ∀ k < height, (index >>> k) % 2 = (first >>> k) % 2)
    (read : ∀ k < height, slice auth (k * N) ((k + 1) * N) = (siblings k).val) :
    (climb tweak node index auth height adrs).1 =
        (List.range height).foldl (Merkle.up (treeJoin tweak base) first siblings) node ∧
      (climb tweak node index auth height adrs).2.Alike base ∧
      (climb tweak node index auth height adrs).2.word3 = first >>> height := by
  induction height with
  | zero => exact ⟨rfl, alike, place⟩
  | succ height ih =>
    obtain ⟨value, kept, stands⟩ := ih (fun k below => bits k (by omega))
      fun k below => read k (by omega)
    have step : climb tweak node index auth (height + 1) adrs = climbStep tweak index auth
        (climb tweak node index auth height adrs) height := by
      rw [climb, range_succ, foldl_concat]
      rfl
    rw [step, range_succ, foldl_concat, ← value, climbStep, Merkle.up,
      bits height (Nat.lt_succ_self height), read height (Nat.lt_succ_self height),
      Merkle.shiftRight_succ_eq, ← stands]
    dsimp only [Adrs.treeIndex, Adrs.setWord2]
    split
    case isTrue even =>
      refine ⟨?_, (kept.setWord2 _).setWord3 _, rfl⟩
      exact congrArg (fun adrs => tweak.h adrs _ _) (kept.setWords _ _)
    case isFalse odd =>
      have half : ((climb tweak node index auth height adrs).2.word3 - 1) / 2 =
          (climb tweak node index auth height adrs).2.word3 / 2 := by omega
      rw [half]
      refine ⟨?_, (kept.setWord2 _).setWord3 _, rfl⟩
      exact congrArg (fun adrs => tweak.h adrs _ _) (kept.setWords _ _)

theorem xmssNode_eq (skSeed : Bytes) (adrs : Adrs) (z i : Nat) :
    xmssNode tweak skSeed adrs z i = Merkle.node (xmssNode tweak skSeed adrs 0)
      (treeJoin tweak (adrs.setTypeAndClear .tree)) z i := by
  induction z generalizing i with
  | zero => rfl
  | succ z ih => rw [xmssNode, Merkle.node, ← ih, ← ih, treeJoin]

theorem xmssNode_of_site (skSeed : Bytes) {left right : Adrs}
    (layer : left.layer = right.layer) (tree : left.tree = right.tree) (z i : Nat) :
    xmssNode tweak skSeed left z i = xmssNode tweak skSeed right z i := by
  induction z generalizing i with
  | zero => rw [xmssNode, xmssNode, Adrs.setTypeAndClear_of_site layer tree]
  | succ z ih => rw [xmssNode, xmssNode, Adrs.setTypeAndClear_of_site layer tree, ih, ih]

theorem length_xmssSign (message : Node) (skSeed : Bytes) (idx : Nat)
    (adrs : Adrs) : (xmssSign tweak message skSeed idx adrs).length = xmssBytes := by
  rw [xmssSign, length_append, length_wotsSign,
    length_flatMap_blocks (fun j => (xmssNode tweak skSeed adrs j _).property)]
  rfl

theorem xmssPkFromSig_xmssSign (message : Node) (skSeed : Bytes) (idx : Nat)
    (adrs : Adrs) :
    (xmssPkFromSig tweak idx (xmssSign tweak message skSeed idx adrs) message adrs).1 =
      xmssNode tweak skSeed adrs hPrime (idx >>> hPrime) := by
  have signed := length_wotsSign tweak message skSeed
    ((adrs.setTypeAndClear .wotsHash).setKeyPairAddress idx)
  rw [xmssPkFromSig, xmssSign, take_append_of_le_length (Nat.le_of_eq signed.symm), ← signed,
    take_length, drop_left, wotsPkFromSig_wotsSign]
  have alike : ((adrs.setTypeAndClear .tree).setWord3 idx).Alike (adrs.setTypeAndClear .tree) :=
    (Adrs.Alike.refl _).setWord3 idx
  have climbed := @climb_eq _ tweak _ _ alike idx idx rfl _ _ (xmssNode tweak skSeed adrs 0 idx)
    hPrime (fun _ _ => rfl) fun k below =>
      slice_flatMap (fun j => (xmssNode tweak skSeed adrs j ((idx >>> j) ^^^ 1)).property) below
  refine climbed.1.trans ?_
  rw [Merkle.foldl_up (xmssNode tweak skSeed adrs 0) (treeJoin tweak (adrs.setTypeAndClear .tree))
    hPrime fun level _ => xmssNode_eq .., xmssNode_eq]

theorem xmssPkFromSig_of_site (idx : Nat) (sigXmss : Bytes) (message : Node)
    {left right : Adrs} (layer : left.layer = right.layer) (tree : left.tree = right.tree) :
    xmssPkFromSig tweak idx sigXmss message left =
      xmssPkFromSig tweak idx sigXmss message right := by
  rw [xmssPkFromSig, xmssPkFromSig, Adrs.setTypeAndClear_of_site layer tree]

end

abbrev htLayers (tweak : Tweak sha) (skSeed : Bytes) (count : Nat) (state : Node × Nat × Adrs) :
    Bytes × Node × Nat × Adrs :=
  collect (fun j => htSignStep tweak skSeed (j + 1)) count state

theorem length_htSignStep (tweak : Tweak sha) (skSeed : Bytes) (j : Nat)
    (state : Node × Nat × Adrs) : (htSignStep tweak skSeed j state).1.length = xmssBytes :=
  length_xmssSign tweak state.1 skSeed _ _

theorem length_htSign (tweak : Tweak sha) (message : Node) (skSeed : Bytes)
    (idxTree idxLeaf : Nat) :
    (htSign tweak message skSeed idxTree idxLeaf).length = layers * xmssBytes := by
  rw [htSign, length_append, length_xmssSign, collect_flatMap,
    length_flatMap_blocks fun j => length_htSignStep tweak skSeed (j + 1) _]
  rfl

theorem slice_htSign (tweak : Tweak sha) (message : Node) (skSeed : Bytes) (idxTree idxLeaf : Nat)
    (inside : j < layers - 1) : let adrs := Adrs.new.setTreeAddress idxTree
    let sigTmp := xmssSign tweak message skSeed idxLeaf adrs
    let root := (xmssPkFromSig tweak idxLeaf sigTmp message adrs).1
    slice (htSign tweak message skSeed idxTree idxLeaf) ((j + 1) * xmssBytes)
        ((j + 1 + 1) * xmssBytes) =
      (htSignStep tweak skSeed (j + 1) (htLayers tweak skSeed j (root, idxTree, adrs)).2).1 := by
  intro adrs sigTmp root
  have first := length_xmssSign tweak message skSeed idxLeaf adrs
  rw [htSign, slice_append_right (first.le.trans (Nat.le_mul_of_pos_left _ (Nat.succ_pos j))),
    first,
    Nat.succ_mul, Nat.add_sub_cancel, Nat.succ_mul (j + 1), Nat.add_sub_cancel]
  rw [collect_flatMap]
  exact slice_flatMap (fun j => length_htSignStep tweak skSeed (j + 1) _) inside

variable {sigHt : Bytes} {signer verifier : Node × Nat × Adrs}

section

variable (tweak : Tweak sha) (skSeed : Bytes)
include tweak skSeed

theorem htStep_htSignStep (root : verifier.1 = signer.1)
    (tree : verifier.2.1 = signer.2.1) (below : j < layers - 1)
    (read : slice sigHt (j * xmssBytes) ((j + 1) * xmssBytes) =
      (htSignStep tweak skSeed j signer).1) :
    (htStep tweak sigHt verifier j).1 = (htSignStep tweak skSeed j signer).2.1 ∧
      (htStep tweak sigHt verifier j).2.1 = (htSignStep tweak skSeed j signer).2.2.1 := by
  obtain ⟨node, above, adrs⟩ := verifier
  obtain ⟨node', above', adrs'⟩ := signer
  cases root
  cases tree
  refine ⟨?_, rfl⟩
  rw [htStep, htSignStep]
  dsimp only
  rw [read, if_pos below]
  exact congrArg Prod.fst (xmssPkFromSig_of_site tweak _ _ node rfl rfl)

theorem foldl_htStep {sigHt : Bytes}
    {signer verifier : Node × Nat × Adrs} (root : verifier.1 = signer.1)
    (tree : verifier.2.1 = signer.2.1) (count : Nat) (short : count < layers - 1)
    (read : ∀ j < count, slice sigHt ((j + 1) * xmssBytes) ((j + 1 + 1) * xmssBytes) =
      (htSignStep tweak skSeed (j + 1) (htLayers tweak skSeed j signer).2).1) :
    ((List.range' 1 count).foldl (htStep tweak sigHt) verifier).1 =
        (htLayers tweak skSeed count signer).2.1 ∧
      ((List.range' 1 count).foldl (htStep tweak sigHt) verifier).2.1 =
        (htLayers tweak skSeed count signer).2.2.1 := by
  induction count with
  | zero => exact ⟨root, tree⟩
  | succ count ih =>
    obtain ⟨node, above⟩ := ih (by omega) fun j below => read j (by omega)
    rw [List.range'_concat, foldl_concat, Nat.one_mul, Nat.add_comm 1 count, collect_succ]
    exact htStep_htSignStep tweak skSeed node above short (read count (Nat.lt_succ_self count))

theorem tree_htLayers (count : Nat)
    (state : Node × Nat × Adrs) :
    (htLayers tweak skSeed count state).2.2.1 = state.2.1 >>> (hPrime * count) := by
  induction count with
  | zero => rfl
  | succ count ih =>
    rw [Nat.mul_succ, Nat.shiftRight_add, ← ih]
    rfl

theorem htStep_top (root : verifier.1 = signer.1)
    (tree : verifier.2.1 = signer.2.1) (top : signer.2.1 >>> hPrime = 0)
    (read : slice sigHt ((layers - 1) * xmssBytes) ((layers - 1 + 1) * xmssBytes) =
      (htSignStep tweak skSeed (layers - 1) signer).1) :
    (htStep tweak sigHt verifier (layers - 1)).1 =
      xmssNode tweak skSeed (Adrs.new.setLayerAddress (layers - 1)) hPrime 0 := by
  obtain ⟨node, above, adrs⟩ := verifier
  obtain ⟨node', above', adrs'⟩ := signer
  cases root
  cases tree
  have leaf : (above % 2 ^ hPrime) >>> hPrime = 0 := by
    rw [Nat.shiftRight_eq_div_pow]
    exact Nat.div_eq_of_lt (Nat.mod_lt _ (Nat.two_pow_pos hPrime))
  rw [htStep]
  dsimp only
  rw [read, htSignStep]
  dsimp only
  rw [@xmssPkFromSig_of_site _ tweak _ _ node
      ((adrs.setLayerAddress (layers - 1)).setTreeAddress (above >>> hPrime))
      ((adrs'.setLayerAddress (layers - 1)).setTreeAddress (above >>> hPrime)) rfl rfl,
    xmssPkFromSig_xmssSign, leaf]
  exact @xmssNode_of_site _ tweak skSeed
    ((adrs'.setLayerAddress (layers - 1)).setTreeAddress (above >>> hPrime))
    (Adrs.new.setLayerAddress (layers - 1)) rfl top hPrime 0

end

theorem htVerify_htSign (tweak : Tweak sha) (message : Node) (skSeed : Bytes) (idxLeaf : Nat)
    (bounded : idxTree < 2 ^ (height - height / layers)) :
    htVerify tweak message (htSign tweak message skSeed idxTree idxLeaf) idxTree idxLeaf
      (xmssNode tweak skSeed (Adrs.new.setLayerAddress (layers - 1)) hPrime 0).val = true := by
  have first := length_xmssSign tweak message skSeed idxLeaf (Adrs.new.setTreeAddress idxTree)
  have read := fun j (below : j < layers - 1) =>
    slice_htSign tweak message skSeed idxTree idxLeaf below
  have started : (htSign tweak message skSeed idxTree idxLeaf).take xmssBytes =
      xmssSign tweak message skSeed idxLeaf (Adrs.new.setTreeAddress idxTree) := by
    rw [htSign, take_append_of_le_length first.ge, ← first, take_length]
  rw [htVerify]
  dsimp only
  rw [started, show List.range' 1 (layers - 1) =
    List.range' 1 (layers - 2) ++ [layers - 1] from rfl,
    foldl_concat, beq_iff_eq]
  obtain ⟨node, above⟩ := @foldl_htStep _ tweak skSeed (htSign tweak message skSeed idxTree idxLeaf)
    ((xmssPkFromSig tweak idxLeaf (xmssSign tweak message skSeed idxLeaf
      (Adrs.new.setTreeAddress idxTree)) message (Adrs.new.setTreeAddress idxTree)).1,
      idxTree, Adrs.new.setTreeAddress idxTree)
    (_, idxTree, _) rfl rfl (layers - 2) (by decide)
    fun j below => read j (Nat.lt_of_lt_of_le below (by decide))
  refine congrArg Subtype.val (htStep_top tweak skSeed node above ?_
    (read (layers - 2) (by decide)))
  rw [tree_htLayers, ← Nat.shiftRight_add, Nat.shiftRight_eq_div_pow]
  exact Nat.div_eq_of_lt bounded

theorem length_forsSign (tweak : Tweak sha) (md : { md : Bytes // md.length = mdBytes })
    (skSeed : Bytes) (adrs : Adrs) : (forsSign tweak md skSeed adrs).length = forsBytes := by
  rw [forsSign]
  refine (length_flatMap_blocks (fun i => ?_) K).trans (Nat.mul_assoc K (1 + A) N).symm
  rw [length_append, length_flatMap_blocks fun j => (forsNode tweak skSeed adrs j _).property,
    (forsSkGen ..).property, Nat.add_mul, Nat.one_mul]

theorem length_signature {r : Node} {sigFors : Bytes} (fors : sigFors.length = forsBytes)
    (ht : sigHt.length = layers * xmssBytes) :
    (r.val ++ (sigFors ++ sigHt)).length = signatureBytes := by
  rw [length_append, length_append, fors, ht, r.property]
  rfl

theorem length_signInternal (message : List Bytes) (sk : Bytes) (addrnd : Option Node) :
    (signInternal sha message sk addrnd).length = signatureBytes :=
  length_signature (length_forsSign ..) (length_htSign ..)

theorem verifyInternal_append {message : List Bytes} {r : Node} {pk sigFors : Bytes}
    (fors : sigFors.length = forsBytes) (ht : sigHt.length = layers * xmssBytes) :
    let digest := splitDigest (hMsg sha r.val (pk.take N) (pk.drop N) message)
    verifyInternal sha message (r.val ++ (sigFors ++ sigHt)) pk =
      if htVerify (.new (pk.take N) : Tweak sha)
        (forsPkFromSig (.new (pk.take N) : Tweak sha) sigFors
          digest.1 (forsAdrs digest.2.1 digest.2.2)) sigHt digest.2.1 digest.2.2 (pk.drop N) = true
      then .ok () else .error .mismatch := by
  rw [verifyInternal, if_neg (not_not_intro (length_signature fors ht))]
  dsimp only
  rw [take_left' r.property, drop_left' r.property, take_left' fors,
    drop_left' fors]

theorem verifyInternal_signInternal {sk : Bytes} (public' : (sk.drop N).drop N = pk)
    (root : pk.drop N = (xmssNode (.new (pk.take N) : Tweak sha) (sk.take N)
      (Adrs.new.setLayerAddress (layers - 1)) hPrime 0).val)
    (message : List Bytes) (addrnd : Option Node) :
    verifyInternal sha message (signInternal sha message sk addrnd) pk = .ok () := by
  rw [signInternal, public', verifyInternal_append (length_forsSign ..) (length_htSign ..)]
  refine if_pos ?_
  rw [root]
  exact htVerify_htSign _ _ _ _ (Nat.mod_lt _ (Nat.two_pow_pos _))

theorem keygenInternal_parts (sha : Sha) (skSeed skPrf pkSeed : Node) :
    let sk := (keygenInternal sha skSeed skPrf pkSeed).1
    let pk := (keygenInternal sha skSeed skPrf pkSeed).2
    (sk.drop N).drop N = pk ∧ pk.drop N = (xmssNode (.new (pk.take N) : Tweak sha) (sk.take N)
      (Adrs.new.setLayerAddress (layers - 1)) hPrime 0).val := by
  have first := skSeed.property
  have second := skPrf.property
  have third := pkSeed.property
  rw [keygenInternal]
  dsimp only
  rw [append_assoc, append_assoc, drop_left' first, drop_left' second,
    drop_left' third, take_left' third, take_left' first]
  exact ⟨rfl, rfl⟩

/-- Whatever the hash, every signature the signer makes under a key it generated verifies. -/
theorem verify_sign (sha : Sha) (skSeed skPrf pkSeed : Node) (message : Bytes) {context : Bytes}
    (short : context.length ≤ 255) (addrnd : Option Node) :
    ∃ signature, sign sha message context (keygenInternal sha skSeed skPrf pkSeed).1 addrnd =
        .ok signature ∧
      verify sha message signature context (keygenInternal sha skSeed skPrf pkSeed).2 = .ok () := by
  have fits : ¬255 < context.length := Nat.not_lt.mpr short
  obtain ⟨public', root⟩ := keygenInternal_parts sha skSeed skPrf pkSeed
  refine ⟨_, if_neg fits, ?_⟩
  rw [verify, if_neg fits]
  exact verifyInternal_signInternal public' root (framed message context) addrnd

theorem verify_sign_sha256 :
    let seed : Node := ⟨List.replicate N 1, length_replicate⟩
    ([7] : Bytes).length ≤ 255 ∧ ∃ signature,
      sign sha256 [1, 2, 3] [7] (keygenInternal sha256 seed seed seed).1 none = .ok signature ∧
        verify sha256 [1, 2, 3] signature [7] (keygenInternal sha256 seed seed seed).2 = .ok () :=
  ⟨by decide, verify_sign sha256 _ _ _ [1, 2, 3] (by decide) none⟩

end Bhaskix.Sig
