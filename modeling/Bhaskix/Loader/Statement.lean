import Bhaskix.Sig.RoundTrip
import Bhaskix.Loader.SlotSafety

namespace Bhaskix.Loader

open Library Sig
open List

abbrev statementBytes : Nat := 128
abbrev bootSigBytes : Nat := statementBytes + signatureBytes

def statementMagic : Bytes :=
  [0x62, 0x68, 0x61, 0x73, 0x6b, 0x69, 0x78, 0x20, 0x62, 0x6f, 0x6f, 0x74, 0x20, 0x76, 0x31, 0]

abbrev algorithm : Nat := 1

structure Digests where
  kernel : Bytes
  initrd : Bytes
  bootConf : Bytes
  deriving DecidableEq, Repr

inductive CheckRefusal
  | wrongSize
  | notAStatement
  | unknownAlgorithm (number : Nat)
  | rolledBack (version floor : Nat)
  | kernelDiffers
  | initrdDiffers
  | bootConfDiffers
  | unknownKey (id : Bytes)
  | badSignature
  deriving DecidableEq, Repr

structure BootSig where
  statement : Bytes
  signature : Bytes
  deriving DecidableEq, Repr

namespace BootSig

def parse (bytes : Bytes) : Except CheckRefusal BootSig :=
  if bytes.length ≠ bootSigBytes then .error .wrongSize
  else if slice (bytes.take statementBytes) 0 16 ≠ statementMagic then .error .notAStatement
  else if word (bytes.take statementBytes) 16 4 ≠ algorithm then
    .error (.unknownAlgorithm (word (bytes.take statementBytes) 16 4))
  else .ok ⟨bytes.take statementBytes, bytes.drop statementBytes⟩

variable (sig : BootSig)

def securityVersion : Nat := word sig.statement 20 4

def keyId : Bytes := slice sig.statement 24 32

def digests : Digests where
  kernel := slice sig.statement 32 64
  initrd := slice sig.statement 64 96
  bootConf := slice sig.statement 96 128

end BootSig

section

variable (sha : Sha)

def digest (bytes : Bytes) : Bytes := (sha.finish (sha.update sha.new bytes)).val

def keyId (publicKey : Bytes) : Bytes := (digest sha publicKey).take 8

structure Verified where
  keyId : Bytes
  version : Nat
  deriving DecidableEq, Repr

def check (bootSig : Bytes) (keys : List Bytes) (held : Digests) (floor : Nat) :
    Except CheckRefusal Verified := do
  let sig ← BootSig.parse bootSig
  if sig.digests.kernel ≠ held.kernel then .error .kernelDiffers
  else if sig.digests.initrd ≠ held.initrd then .error .initrdDiffers
  else if sig.digests.bootConf ≠ held.bootConf then .error .bootConfDiffers
  else match keys.find? fun key => keyId sha key == sig.keyId with
  | none => .error (.unknownKey sig.keyId)
  | some key =>
    match verify sha sig.statement sig.signature [] key with
    | .error _ => .error .badSignature
    | .ok () =>
      if sig.securityVersion < floor then .error (.rolledBack sig.securityVersion floor)
      else .ok ⟨sig.keyId, sig.securityVersion⟩

end

def statement (keyId : Bytes) (digests : Digests) (version : Nat) : Bytes :=
  statementMagic ++ (leBytes 4 algorithm ++ (leBytes 4 version ++ (keyId ++
    (digests.kernel ++ (digests.initrd ++ digests.bootConf)))))

section

variable {sha : Sha} {keys : List Bytes}

theorem check_eq_ok {floor : Nat} (checked : check sha bootSig keys held floor = .ok verified) :
    ∃ sig key, BootSig.parse bootSig = .ok sig ∧ sig.digests = held ∧ key ∈ keys ∧
      keyId sha key = sig.keyId ∧ verify sha sig.statement sig.signature [] key = .ok () ∧
      verified.version = sig.securityVersion ∧ floor ≤ verified.version := by
  rw [check] at checked
  cases parsed : BootSig.parse bootSig with
  | error refusal =>
    rw [parsed] at checked
    cases checked
  | ok sig =>
    rw [parsed] at checked
    change (if sig.digests.kernel ≠ held.kernel then _ else _) = _ at checked
    split at checked
    · cases checked
    case isFalse kernel =>
      split at checked
      · cases checked
      case isFalse initrd =>
        split at checked
        · cases checked
        case isFalse conf =>
          split at checked
          · cases checked
          case h_2 key found =>
            split at checked
            · cases checked
            case h_2 accepted =>
              split at checked
              · cases checked
              case isFalse above =>
                cases checked
                have named := find?_some found
                refine ⟨sig, key, rfl, ?_, mem_of_find?_eq_some found,
                  by simpa using named, accepted, rfl, Nat.not_lt.mp above⟩
                obtain ⟨one, two, three⟩ := held
                simp only [ne_eq, Decidable.not_not] at kernel initrd conf
                subst kernel initrd conf
                rfl

theorem check_of_parse {bootSig : Bytes} {keys : List Bytes} {sig : BootSig} {key : Bytes}
    {floor : Nat} (parsed : BootSig.parse bootSig = .ok sig)
    (found : (keys.find? fun key => keyId sha key == sig.keyId) = some key)
    (accepted : verify sha sig.statement sig.signature [] key = .ok ())
    (above : floor ≤ sig.securityVersion) :
    check sha bootSig keys sig.digests floor = .ok ⟨sig.keyId, sig.securityVersion⟩ := by
  rw [check, parsed]
  change (if sig.digests.kernel ≠ sig.digests.kernel then _ else _) = _
  rw [if_neg (not_not_intro rfl), if_neg (not_not_intro rfl), if_neg (not_not_intro rfl), found]
  dsimp only
  rw [accepted]
  exact if_neg (Nat.not_lt.mpr above)

structure Digests.Sized (digests : Digests) : Prop where
  kernel : digests.kernel.length = 32
  initrd : digests.initrd.length = 32
  bootConf : digests.bootConf.length = 32

theorem length_keyId (publicKey : Bytes) : (keyId sha publicKey).length = 8 := by
  rw [keyId, length_take, digest, (sha.finish _).property]
  rfl

theorem check_signed (skSeed skPrf pkSeed : Node) (addrnd : Option Node) {held : Digests}
    (sized : held.Sized) {version floor : Nat} (small : version < 256 ^ 4)
    (above : floor ≤ version) : let keys := keygenInternal sha skSeed skPrf pkSeed
    let signed := statement (keyId sha keys.2) held version
    check sha (signed ++ signInternal sha (framed signed []) keys.1 addrnd) [keys.2] held floor =
      .ok ⟨keyId sha keys.2, version⟩ := by
  intro keys signed
  set signature := signInternal sha (framed signed []) keys.1 addrnd with made
  have id := @length_keyId sha keys.2
  have whole : signed.length = statementBytes := by
    simp only [signed, statement, length_append, length_leBytes, id, sized.kernel,
      sized.initrd, sized.bootConf]
    rfl
  have parsed : BootSig.parse (signed ++ signature) = .ok ⟨signed, signature⟩ := by
    have magic : slice signed 0 16 = statementMagic := by
      rw [← nil_append signed]
      exact slice_at rfl rfl
    have named : word signed 16 4 = algorithm := word_at rfl (by decide)
    rw [BootSig.parse, length_append, whole, made, length_signInternal, if_neg (not_not_intro rfl),
      take_left' whole, drop_left' whole, if_neg (not_not_intro magic),
      if_neg (not_not_intro named)]
  have version' : word signed 20 4 = version := by
    simp only [signed, statement]
    rw [← append_assoc]
    exact word_at rfl small
  have named : slice signed 24 32 = keyId sha keys.2 := by
    simp only [signed, statement]
    rw [← append_assoc, ← append_assoc]
    exact slice_at rfl (by rw [id])
  have front : (statementMagic ++ leBytes 4 algorithm ++ leBytes 4 version ++
      keyId sha keys.2).length = 32 := by
    simp only [length_append, length_leBytes, id]
    rfl
  have split : signed = (statementMagic ++ leBytes 4 algorithm ++ leBytes 4 version ++
      keyId sha keys.2) ++ (held.kernel ++ (held.initrd ++ held.bootConf)) := by
    simp only [signed, statement, append_assoc]
  have kernel : slice signed 32 64 = held.kernel := by
    rw [split]
    exact slice_at front (by rw [sized.kernel])
  have initrd : slice signed 64 96 = held.initrd := by
    rw [split, ← append_assoc]
    exact slice_at (by rw [length_append, front, sized.kernel]) (by rw [sized.initrd])
  have conf : slice signed 96 128 = held.bootConf := by
    rw [split, ← append_assoc, ← append_assoc, ← append_nil held.bootConf]
    refine (slice_at ?_ ?_).trans (append_nil _).symm
    · rw [length_append, length_append, front, sized.kernel, sized.initrd]
    · rw [sized.bootConf]
  have accepted : verify sha signed signature [] keys.2 = .ok () := by
    obtain ⟨public', root⟩ := keygenInternal_parts sha skSeed skPrf pkSeed
    rw [verify, if_neg (by decide)]
    exact verifyInternal_signInternal public' root _ addrnd
  have digests : BootSig.digests ⟨signed, signature⟩ = held := by
    rw [BootSig.digests, kernel, initrd, conf]
  have checked := @check_of_parse sha _ [keys.2] _ keys.2 floor parsed
    (by rw [BootSig.keyId, named]; exact find?_cons_of_pos (BEq.rfl)) accepted
    (by rw [BootSig.securityVersion, version']; exact above)
  rw [digests, BootSig.keyId, BootSig.securityVersion, named, version'] at checked
  exact checked

end

end Bhaskix.Loader
