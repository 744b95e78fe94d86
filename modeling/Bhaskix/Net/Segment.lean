import Bhaskix.Net.Octets

/-!
TCP segments as bytes: a header of fixed fields, a list of options whose strides the sender chose,
and whatever is left as payload.
-/

namespace Bhaskix.Net.Wire

open Library
open List (replicate length_append append_nil flatten_nil length_drop)
open Checked (ok_bind bind_eq_ok)
open Outcome (require_bind require_bind_ne_overflow require_bind_eq_ok)

inductive Address
  | v4 (address : UInt32)
  | v6 (octets : Vector UInt8 16)
  deriving DecidableEq, Repr

def Address.sameFamily : Address → Address → Prop
  | .v4 _, .v4 _ => True
  | .v6 _, .v6 _ => True
  | _, _ => False

abbrev headerBytes : Nat := 20

abbrev endOfList : UInt8 := 0

abbrev noOperation : UInt8 := 1

abbrev maximumSegmentSize : UInt8 := 2

abbrev tcp : UInt8 := 6

abbrev u16Max : Nat := 65535

structure Flags where
  bits : UInt8
  deriving DecidableEq, Repr

namespace Flags

def fin : Flags := ⟨0x01⟩

def syn : Flags := ⟨0x02⟩

def rst : Flags := ⟨0x04⟩

def psh : Flags := ⟨0x08⟩

def ack : Flags := ⟨0x10⟩

variable (flags other : Flags)

def contains : Bool :=
  flags.bits &&& other.bits == other.bits

def with_ : Flags :=
  ⟨flags.bits ||| other.bits⟩

def without : Flags :=
  ⟨flags.bits &&& ~~~ other.bits⟩

theorem contains_with : (flags.with_ other).contains other = true := by
  have absorbed : (flags.bits ||| other.bits) &&& other.bits = other.bits := by
    apply UInt8.toBitVec_inj.mp
    ext index
    simp +contextual
  rw [contains, with_, absorbed]
  exact beq_self_eq_true _

theorem contains_without : (flags.without .ack).contains .ack = false := by
  have cleared : flags.bits &&& ~~~ ack.bits &&& ack.bits = 0 := by
    apply UInt8.toBitVec_inj.mp
    ext index
    simp
  rw [contains, without, cleared]
  rfl

end Flags

structure Options where
  mss : Option UInt16 := none
  deriving DecidableEq, Repr

structure Segment where
  source : UInt16
  destination : UInt16
  sequence : UInt32
  acknowledgement : Option UInt32
  flags : Flags
  window : UInt16
  options : Options
  payload : List UInt8
  deriving DecidableEq, Repr

def pseudoOf : Address → Address → Nat → Outcome (List UInt8)
  | .v4 source, .v4 destination, length =>
    .ok (toBe32 source ++ toBe32 destination ++ [0, tcp] ++ toBe16 (UInt16.ofNat length))
  | .v6 source, .v6 destination, length =>
    .ok (source.toList ++ destination.toList ++ toBe32 (UInt32.ofNat length) ++ [0, 0, 0, tcp])
  | _, _, _ => refuse (.unsupported "pseudo-header family (mixed)" 0)

def parseOptionsFrom (header : List UInt8) (position : Nat) (options : Options) : Outcome Options :=
  if inside : position < header.length then
    let kind := header.get ⟨position, inside⟩
    if kind = endOfList then .ok options
    else if kind = noOperation then parseOptionsFrom header (position + 1) options
    else
      match header[position + 1]? with
      | none => refuse (.truncated (position + 2) header.length)
      | some length =>
        if length < 2 then refuse (.badOptionLength kind length)
        else if header.length < position + length.toNat then
          refuse (.lengthBeyondBuffer (position + length.toNat) header.length)
        else if kind = maximumSegmentSize then
          if length ≠ 4 then refuse (.badOptionLength kind length)
          else
            parseOptionsFrom header (position + length.toNat)
              { options with mss := be16 header (position + 2) }
        else parseOptionsFrom header (position + length.toNat) options
  else .ok options
termination_by header.length - position
decreasing_by
  all_goals simp_all only [UInt8.lt_iff_toNat_lt]
  all_goals have two : (2 : UInt8).toNat = 2 := rfl
  all_goals omega

def parseOptions (header : List UInt8) : Outcome Options :=
  parseOptionsFrom header headerBytes {}

def headerLengthOf (words : UInt8) : Nat :=
  words.toNat * 4

variable (bytes : List UInt8)

def Segment.decode (options : Options) : Segment :=
  let flags : Flags := ⟨bytes.getD 13 0⟩
  { source := (be16 bytes 0).getD 0
    destination := (be16 bytes 2).getD 0
    sequence := (be32 bytes 4).getD 0
    acknowledgement := if flags.contains .ack then some ((be32 bytes 8).getD 0) else none
    flags
    window := (be16 bytes 14).getD 0
    options
    payload := bytes.drop (headerLengthOf (bytes.getD 12 0 >>> 4)) }

def Segment.parse (source destination : Address) : Outcome Segment := do
  require (headerBytes ≤ bytes.length) (.truncated headerBytes bytes.length)
  let words := bytes.getD 12 0 >>> 4
  require (headerBytes ≤ headerLengthOf words) (.badHeaderLength words bytes.length)
  require (headerLengthOf words ≤ bytes.length) (.badHeaderLength words bytes.length)
  let carried := (be16 bytes 16).getD 0
  require (bytes.length ≤ u16Max) (.lengthBeyondBuffer bytes.length u16Max)
  let pseudo ← pseudoOf source destination bytes.length
  let computed ← checksum [pseudo, bytes.take 16, [0, 0], bytes.drop 18]
  require (computed = carried) (.badChecksum computed carried)
  let options ← parseOptions (bytes.take (headerLengthOf words))
  return Segment.decode bytes options

def put (start : Nat) (field : List UInt8) : List UInt8 :=
  bytes.take start ++ field ++ bytes.drop (start + field.length)

namespace Segment

variable (segment : Segment) (before : Option UInt16) (met : List (UInt8 × List UInt8))
  (bytes : List UInt8)

def headerLength : Nat :=
  if segment.options.mss.isSome then headerBytes + 4 else headerBytes

def total : Nat :=
  segment.headerLength + segment.payload.length

def writtenFlags : Flags :=
  match segment.acknowledgement with
  | some _ => segment.flags.with_ .ack
  | none => segment.flags.without .ack

def putAcknowledgement : List UInt8 :=
  match segment.acknowledgement with
  | some acknowledgement => put bytes 8 (toBe32 acknowledgement)
  | none => bytes

def putOptions : List UInt8 :=
  match segment.options.mss with
  | some mss =>
    let bytes := put bytes headerBytes [maximumSegmentSize]
    let bytes := put bytes (headerBytes + 1) [4]
    put bytes (headerBytes + 2) (toBe16 mss)
  | none => bytes

def layOut : List UInt8 :=
  let bytes := replicate segment.total 0
  let bytes := put bytes 0 (toBe16 segment.source)
  let bytes := put bytes 2 (toBe16 segment.destination)
  let bytes := put bytes 4 (toBe32 segment.sequence)
  let bytes := segment.putAcknowledgement bytes
  let bytes := put bytes 12 [UInt8.ofNat (segment.headerLength / 4) <<< 4]
  let bytes := put bytes 13 [segment.writtenFlags.bits]
  let bytes := put bytes 14 (toBe16 segment.window)
  let bytes := segment.putOptions bytes
  put bytes segment.headerLength segment.payload

def write (out : List UInt8) (segment : Segment) (source destination : Address) :
    Outcome Nat × List UInt8 :=
  if 2 ^ 64 ≤ segment.total then
    (refuse (.lengthBeyondBuffer segment.payload.length u16Max), out)
  else if u16Max < segment.total then
    (refuse (.lengthBeyondBuffer segment.total u16Max), out)
  else if out.length < segment.total then
    (refuse (.truncated segment.total out.length), out)
  else
    let bytes := segment.layOut
    let rest := out.drop segment.total
    match pseudoOf source destination segment.total with
    | .error stop => (.error stop, bytes ++ rest)
    | .ok pseudo =>
      match checksum [pseudo, bytes] with
      | .error stop => (.error stop, bytes ++ rest)
      | .ok sum => (.ok segment.total, put bytes 16 (toBe16 sum) ++ rest)

def fixedPart (sum : UInt16) : List UInt8 :=
  toBe16 segment.source ++ toBe16 segment.destination ++ toBe32 segment.sequence ++
    toBe32 (segment.acknowledgement.getD 0) ++
    [UInt8.ofNat (segment.headerLength / 4) <<< 4, segment.writtenFlags.bits] ++
    toBe16 segment.window ++ toBe16 sum ++ [0, 0]

def optionBytes : List UInt8 :=
  match segment.options.mss with
  | some mss => [maximumSegmentSize, 4] ++ toBe16 mss
  | none => []

def encoded (sum : UInt16) : List UInt8 :=
  segment.fixedPart sum ++ (segment.optionBytes ++ segment.payload)

variable {segment : Segment} {sum : UInt16}

theorem length_optionBytes : headerBytes + segment.optionBytes.length = segment.headerLength := by
  cases mss : segment.options.mss with
  | none => simp [optionBytes, headerLength, mss]
  | some mss => simp [optionBytes, headerLength, mss, toBe16]

theorem length_encoded : (segment.encoded sum).length = segment.total := by
  have options : headerBytes + segment.optionBytes.length = _ := length_optionBytes
  rw [encoded, length_append, length_append, total, ← options, Nat.add_assoc]
  rfl

theorem length_header :
    (segment.fixedPart sum ++ segment.optionBytes).length = segment.headerLength := by
  rw [← length_optionBytes, length_append]
  rfl

theorem take_encoded : (segment.encoded sum).take segment.headerLength =
    segment.fixedPart sum ++ segment.optionBytes := by
  rw [encoded, ← List.append_assoc, ← @length_header segment sum, List.take_left]

theorem drop_encoded : (segment.encoded sum).drop segment.headerLength = segment.payload := by
  rw [encoded, ← List.append_assoc, ← @length_header segment sum, List.drop_left]

theorem words_encoded :
    headerLengthOf ((segment.encoded sum).getD 12 0 >>> 4) = segment.headerLength := by
  change headerLengthOf (UInt8.ofNat (segment.headerLength / 4) <<< 4 >>> 4) = _
  unfold headerLength
  split
  · rfl
  · rfl

variable {bytes pseudo : List UInt8} {source destination : Address} {length : Nat}

theorem put_nil {field : List UInt8} (exact : bytes.length = start) :
    put (bytes ++ replicate field.length 0) start field = bytes ++ field := by
  rw [put, ← exact, List.take_left, List.drop_eq_nil_of_le (by simp), append_nil]

theorem layOut_header : segment.layOut =
    put (segment.fixedPart 0 ++ segment.optionBytes ++ replicate segment.payload.length 0)
      segment.headerLength segment.payload := by
  have zeros : replicate segment.total (0 : UInt8) =
      replicate segment.headerLength 0 ++ replicate segment.payload.length 0 :=
    (List.replicate_append_replicate).symm
  unfold layOut
  rw [zeros]
  generalize replicate segment.payload.length (0 : UInt8) = rest
  obtain ⟨source, destination, sequence, acknowledgement, flags, window, ⟨mss⟩, payload⟩ := segment
  cases acknowledgement
  all_goals cases mss
  all_goals
    simp [put, fixedPart, optionBytes, headerLength, toBe16, toBe32, putAcknowledgement, putOptions,
      List.replicate_succ]

theorem layOut_eq : segment.layOut = segment.encoded 0 := by
  rw [layOut_header, put_nil length_header, encoded, List.append_assoc]

theorem put_checksum : put (segment.encoded 0) 16 (toBe16 sum) = segment.encoded sum :=
  rfl

theorem spans_flatten (pseudo : List UInt8) :
    [pseudo, (segment.encoded sum).take 16, [0, 0], (segment.encoded sum).drop 18].flatten =
      [pseudo, segment.encoded 0].flatten := by
  simp only [List.flatten_cons, flatten_nil, append_nil]
  rfl

theorem parseOptions_encoded :
    parseOptions (segment.fixedPart sum ++ segment.optionBytes) = .ok segment.options := by
  cases mss : segment.options.mss with
  | none =>
    have done : ¬ headerBytes < (segment.fixedPart sum ++ segment.optionBytes).length := by
      rw [length_header, headerLength, mss]
      exact Nat.lt_irrefl _
    rw [parseOptions, parseOptionsFrom, dif_neg done]
    exact congrArg _ (congrArg Options.mk mss.symm)
  | some mss' =>
    have bytes : segment.optionBytes = [maximumSegmentSize, 4] ++ toBe16 mss' := by
      rw [optionBytes, mss]
    rw [bytes]
    generalize header : segment.fixedPart sum ++ ([maximumSegmentSize, 4] ++ toBe16 mss') = whole
    have long : whole.length = 24 := by
      rw [← header]
      rfl
    have kind (inside : headerBytes < whole.length) :
        whole.get ⟨headerBytes, inside⟩ = maximumSegmentSize := by
      subst header
      rfl
    have length : whole[headerBytes + 1]? = some 4 := by
      rw [← header]
      rfl
    have read : be16 whole (headerBytes + 2) = some mss' := by
      rw [← header]
      exact congrArg some (fromBe16_toBe16 mss')
    have inside : headerBytes < whole.length := by
      rw [long]
      decide
    have done : ¬ headerBytes + (4 : UInt8).toNat < whole.length := by
      rw [long]
      decide
    rw [parseOptions, parseOptionsFrom, dif_pos inside]
    simp only [kind, length, read]
    rw [if_neg (by decide), if_neg (by decide), if_neg (by decide), if_neg (by rw [long]; decide),
      if_pos trivial, if_neg (by decide), parseOptionsFrom, dif_neg done, ← mss]

theorem acknowledgement_written :
    (if segment.writtenFlags.contains .ack then some (segment.acknowledgement.getD 0) else none) =
      segment.acknowledgement := by
  cases given : segment.acknowledgement with
  | none => simp only [writtenFlags, given, Flags.contains_without, Bool.false_eq_true, if_false]
  | some acknowledgement => simp only [writtenFlags, given, Flags.contains_with, if_true,
      Option.getD_some]

theorem decode_encoded : decode (segment.encoded sum) segment.options =
      { segment with flags := segment.writtenFlags } := by
  have source : be16 (segment.encoded sum) 0 = some segment.source :=
    congrArg some (fromBe16_toBe16 _)
  have destination : be16 (segment.encoded sum) 2 = some segment.destination :=
    congrArg some (fromBe16_toBe16 _)
  have sequence : be32 (segment.encoded sum) 4 = some segment.sequence :=
    congrArg some (fromBe32_toBe32 _)
  have acknowledgement : be32 (segment.encoded sum) 8 = some (segment.acknowledgement.getD 0) :=
    congrArg some (fromBe32_toBe32 _)
  have window : be16 (segment.encoded sum) 14 = some segment.window :=
    congrArg some (fromBe16_toBe16 _)
  have flags : (segment.encoded sum).getD 13 0 = segment.writtenFlags.bits :=
    rfl
  rw [decode, source, destination, sequence, acknowledgement, window, flags, words_encoded,
    drop_encoded]
  have same : (⟨segment.writtenFlags.bits⟩ : Flags) = segment.writtenFlags :=
    rfl
  simp only [Option.getD_some, same, acknowledgement_written]

theorem length_pseudoOf
    (made : pseudoOf source destination length = .ok pseudo) : pseudo.length ≤ 40 := by
  match source, destination with
  | .v4 source, .v4 destination =>
    cases made
    simp [toBe32, toBe16]
  | .v6 source, .v6 destination =>
    cases made
    simp [toBe32]

theorem pseudoOf_ne_overflow : pseudoOf source destination length ≠ .error .overflow := by
  match source, destination with
  | .v4 _, .v4 _ => exact nofun
  | .v6 _, .v6 _ => exact nofun
  | .v4 _, .v6 _ => exact nofun
  | .v6 _, .v4 _ => exact nofun

theorem pseudoOf_sameFamily (same : source.sameFamily destination)
    (length : Nat) : ∃ pseudo, pseudoOf source destination length = .ok pseudo := by
  match source, destination with
  | .v4 source, .v4 destination => exact ⟨_, rfl⟩
  | .v6 source, .v6 destination => exact ⟨_, rfl⟩

theorem sums
    (made : pseudoOf source destination length = .ok pseudo) (fits : bytes.length ≤ u16Max) :
    wordSum [pseudo, bytes].flatten < 2 ^ 32 := by
  have short := length_pseudoOf made
  apply wordSum_lt
  simp only [List.flatten_cons, flatten_nil, append_nil, length_append]
  unfold u16Max at fits
  omega

theorem write_eq {out : List UInt8}
    (same : source.sameFamily destination) (fits : segment.total ≤ u16Max)
    (room : segment.total ≤ out.length) :
    ∃ pseudo sum, pseudoOf source destination segment.total = .ok pseudo ∧
      checksum [pseudo, segment.encoded 0] = .ok sum ∧ segment.write out source destination =
        (.ok segment.total, segment.encoded sum ++ out.drop segment.total) := by
  obtain ⟨pseudo, made⟩ := pseudoOf_sameFamily same segment.total
  have summed := checksum_eq (sums made ((@length_encoded segment 0).trans_le fits))
  refine ⟨pseudo, _, made, summed, ?_⟩
  unfold u16Max at fits
  rw [write, if_neg (by omega), if_neg (by unfold u16Max; omega), if_neg (by omega), made,
    layOut_eq]
  simp only [summed, put_checksum]

theorem parse_encoded (fits : segment.total ≤ u16Max)
    (made : pseudoOf source destination segment.total = .ok pseudo)
    (summed : checksum [pseudo, segment.encoded 0] = .ok sum) :
    parse (segment.encoded sum) source destination =
      .ok { segment with flags := segment.writtenFlags } := by
  have options : headerBytes + segment.optionBytes.length = segment.headerLength :=
    length_optionBytes
  have spans := checksum_congr (@spans_flatten segment sum pseudo)
    (sums made ((@length_encoded segment 0).trans_le fits))
  have carried : be16 (segment.encoded sum) 16 = some sum :=
    congrArg some (fromBe16_toBe16 sum)
  unfold parse
  dsimp only
  rw [length_encoded, words_encoded, made,
    require_bind (by unfold total; omega), require_bind (by omega),
    require_bind (by unfold total; omega), require_bind fits, ok_bind, spans,
    summed, ok_bind, carried, Option.getD_some, require_bind rfl, take_encoded,
      parseOptions_encoded,
    ok_bind, decode_encoded]
  rfl

/-- The options met from a place in the header on, each with the bytes after its length. -/
inductive Walk : List UInt8 → List (UInt8 × List UInt8) → Prop
  | exhausted : Walk [] []
  | ended (rest : List UInt8) : Walk (endOfList :: rest) []
  | padded {rest met} (later : Walk rest met) :
      Walk (noOperation :: rest) met
  | option {kind length body rest met}
      (carries : kind ≠ endOfList ∧ kind ≠ noOperation) (stated : length.toNat = body.length + 2)
      (later : Walk rest met) : Walk (kind :: length :: (body ++ rest)) ((kind, body) :: met)

def lastMss : Option UInt16 :=
  (met.filter fun option => option.1 = maximumSegmentSize).getLast?.bind fun option =>
    be16 option.2 0

theorem Walk.unique {met other : List (UInt8 × List UInt8)}
    (first : Walk bytes met) (second : Walk bytes other) : met = other := by
  induction first generalizing other with
  | exhausted =>
    cases second
    rfl
  | ended rest =>
    cases second with
    | ended => rfl
    | option carries => exact absurd rfl carries.1
  | padded later ih =>
    cases second with
    | padded later => exact ih later
    | option carries => exact absurd rfl carries.2
  | option carries stated later ih =>
    generalize whole : _ :: _ :: (_ ++ _) = bytes at second
    cases second with
    | exhausted => cases whole
    | ended =>
      cases whole
      exact absurd rfl carries.1
    | padded =>
      cases whole
      exact absurd rfl carries.2
    | option carries' stated' later' =>
      simp only [List.cons.injEq] at whole
      obtain ⟨rfl, rfl, parts⟩ := whole
      obtain ⟨rfl, rfl⟩ := List.append_inj parts (by omega)
      rw [ih later']

def mssAfter : Option UInt16 :=
  ((met.filter fun option => option.1 = maximumSegmentSize).getLast?.map fun option =>
    be16 option.2 0).getD before

theorem mssAfter_none : mssAfter none met = lastMss met := by
  unfold mssAfter lastMss
  cases (met.filter fun option => option.1 = maximumSegmentSize).getLast? with
  | none | some option => rfl

theorem mssAfter_cons_mss (body : List UInt8) (met : List (UInt8 × List UInt8)) :
    mssAfter before ((maximumSegmentSize, body) :: met) = mssAfter (be16 body 0) met := by
  unfold mssAfter
  rw [List.filter_cons_of_pos (by simp), List.getLast?_cons]
  cases (met.filter fun option => option.1 = maximumSegmentSize).getLast? with
  | none | some option => rfl

theorem mssAfter_cons_other {kind : UInt8} (body : List UInt8)
    (met : List (UInt8 × List UInt8)) (other : kind ≠ maximumSegmentSize) :
    mssAfter before ((kind, body) :: met) = mssAfter before met := by
  unfold mssAfter
  rw [List.filter_cons_of_neg (by simpa using other)]

section Header

variable {header : List UInt8} {position : Nat} {length : UInt8}

def bodyAt (header : List UInt8) (position : Nat) (length : UInt8) : List UInt8 :=
  (header.drop (position + 2)).take (length.toNat - 2)

theorem drop_option (inside : position < header.length)
    (second : header[position + 1]? = some length) (long : 2 ≤ length.toNat) :
    header.drop position = header.get ⟨position, inside⟩ :: length ::
      (bodyAt header position length ++ header.drop (position + length.toNat)) := by
  obtain ⟨insideToo, second⟩ := List.getElem?_eq_some_iff.mp second
  have after : header.drop (position + length.toNat) =
      (header.drop (position + 2)).drop (length.toNat - 2) := by
    rw [List.drop_drop]
    congr 1
    omega
  rw [List.drop_eq_getElem_cons inside, List.drop_eq_getElem_cons insideToo, second, bodyAt, after,
    List.take_append_drop]
  rfl

theorem be16_bodyAt : be16 (bodyAt header position 4) 0 = be16 header (position + 2) := by
  unfold be16 bodyAt
  match header.drop (position + 2) with
  | [] => rfl
  | [_] => rfl
  | _ :: _ :: _ => rfl

theorem walk_option {met : List (UInt8 × List UInt8)} (inside : position < header.length)
    (carries : header.get ⟨position, inside⟩ ≠ endOfList ∧
      header.get ⟨position, inside⟩ ≠ noOperation)
    (second : header[position + 1]? = some length) (long : ¬ length < 2)
    (room : ¬ header.length < position + length.toNat)
    (later : Walk (header.drop (position + length.toNat)) met) : Walk (header.drop position)
      ((header.get ⟨position, inside⟩, bodyAt header position length) :: met) := by
  have two : 2 ≤ length.toNat := Nat.not_lt.mp fun short => long (UInt8.lt_iff_toNat_lt.mpr short)
  rw [drop_option inside second two]
  refine .option carries ?_ later
  rw [bodyAt, List.length_take, length_drop]
  omega

end Header

theorem parseOptionsFrom_sound {options : Options}
    (ran : parseOptionsFrom header position options = .ok result) :
    ∃ met, Walk (header.drop position) met ∧ result.mss = mssAfter options.mss met := by
  fun_induction parseOptionsFrom header position options with
  | case1 position options inside kind ends =>
    cases ran
    refine ⟨[], ?_, rfl⟩
    rw [List.drop_eq_getElem_cons inside, show header[position] = endOfList from ends]
    exact .ended _
  | case2 position options inside kind _ pads ih =>
    obtain ⟨met, later, same⟩ := ih ran
    refine ⟨met, ?_, same⟩
    rw [List.drop_eq_getElem_cons inside, show header[position] = noOperation from pads]
    exact .padded later
  | case3 | case4 | case5 | case6 => exact nomatch ran
  | case7 position options inside kind notEnd notPad length second long room states four ih =>
    obtain ⟨met, later, same⟩ := ih ran
    refine ⟨_, walk_option inside ⟨notEnd, notPad⟩ second long room later, ?_⟩
    obtain rfl : length = 4 := of_not_not four
    rw [same, show header.get ⟨position, inside⟩ = maximumSegmentSize from states,
      mssAfter_cons_mss, be16_bodyAt]
  | case8 position options inside kind notEnd notPad length second long room other ih =>
    obtain ⟨met, later, same⟩ := ih ran
    refine ⟨_, walk_option inside ⟨notEnd, notPad⟩ second long room later, ?_⟩
    rw [same, mssAfter_cons_other _ _ _ other]
  | case9 position options outside =>
    cases ran
    refine ⟨[], ?_, rfl⟩
    rw [List.drop_eq_nil_of_le (Nat.not_lt.mp outside)]
    exact .exhausted

theorem parseOptionsFrom_ne_overflow (header : List UInt8) (position : Nat) (options : Options) :
    parseOptionsFrom header position options ≠ .error .overflow := by
  fun_induction parseOptionsFrom header position options with
  | case1 | case3 | case4 | case5 | case6 | case9 => exact nofun
  | case2 _ _ _ _ _ _ ih => exact ih
  | case7 _ _ _ _ _ _ _ _ _ _ _ _ ih => exact ih
  | case8 _ _ _ _ _ _ _ _ _ _ _ ih => exact ih

variable {bytes : List UInt8} {source destination : Address}

def statedLength (bytes : List UInt8) : Nat :=
  headerLengthOf (bytes.getD 12 0 >>> 4)

theorem parse_ne_overflow : parse bytes source destination ≠ .error .overflow := by
  unfold parse
  refine require_bind_ne_overflow fun enough => ?_
  refine require_bind_ne_overflow fun fixed => ?_
  refine require_bind_ne_overflow fun inside => ?_
  refine require_bind_ne_overflow fun fits => ?_
  refine Outcome.bind_ne_overflow pseudoOf_ne_overflow fun pseudo made => ?_
  have short : wordSum [pseudo, bytes.take 16, [0, 0], bytes.drop 18].flatten < 2 ^ 32 := by
    have shortPseudo := length_pseudoOf made
    apply wordSum_lt
    simp only [List.flatten_cons, flatten_nil, append_nil, length_append,
      List.length_take, length_drop, List.length_cons, List.length_nil]
    unfold u16Max at fits
    omega
  rw [checksum_eq short, ok_bind]
  refine require_bind_ne_overflow fun _ => ?_
  exact Outcome.bind_ne_overflow (parseOptionsFrom_ne_overflow _ _ _) fun _ _ => nofun

theorem parse_sound (accepted : parse bytes source destination = .ok segment) :
    headerBytes ≤ statedLength bytes ∧ statedLength bytes ≤ bytes.length ∧
      ∃ options, parseOptions (bytes.take (statedLength bytes)) = .ok options ∧
        segment = decode bytes options := by
  unfold parse at accepted
  obtain ⟨_, accepted⟩ := require_bind_eq_ok.mp accepted
  obtain ⟨fixed, accepted⟩ := require_bind_eq_ok.mp accepted
  obtain ⟨inside, accepted⟩ := require_bind_eq_ok.mp accepted
  obtain ⟨_, accepted⟩ := require_bind_eq_ok.mp accepted
  obtain ⟨pseudo, _, accepted⟩ := bind_eq_ok.mp accepted
  obtain ⟨computed, _, accepted⟩ := bind_eq_ok.mp accepted
  obtain ⟨_, accepted⟩ := require_bind_eq_ok.mp accepted
  obtain ⟨options, walked, accepted⟩ := bind_eq_ok.mp accepted
  cases accepted
  exact ⟨fixed, inside, options, walked, rfl⟩

/-- A segment survives the wire; what reading accepts has the payload after the stated header and
the last segment size its options state. -/
theorem parse_faithful : (∀ (segment : Segment) (source destination : Address) (out : List UInt8),
      source.sameFamily destination → segment.total ≤ u16Max → segment.total ≤ out.length →
      ∃ written, segment.write out source destination = (.ok segment.total, written) ∧
        written.length = out.length ∧ written.drop segment.total = out.drop segment.total ∧
        parse (written.take segment.total) source destination = .ok { segment with
          flags := if segment.acknowledgement.isSome then segment.flags.with_ .ack
            else segment.flags.without .ack }) ∧
    ∀ (bytes : List UInt8) (source destination : Address),
      parse bytes source destination ≠ .error .overflow ∧
      ∀ segment, parse bytes source destination = .ok segment →
        segment.payload = bytes.drop (statedLength bytes) ∧
        ∃ met, (∀ other, Walk ((bytes.take (statedLength bytes)).drop headerBytes) other ↔
          other = met) ∧ segment.options.mss = lastMss met := by
  constructor
  · intro segment source destination out same fits room
    obtain ⟨pseudo, sum, made, summed, written⟩ := write_eq same fits room
    have flags : segment.writtenFlags = if segment.acknowledgement.isSome then
        segment.flags.with_ .ack else segment.flags.without .ack := by
      cases given : segment.acknowledgement with
      | none | some acknowledgement => simp [writtenFlags, given]
    refine ⟨_, written, ?_, ?_, ?_⟩
    · rw [length_append, length_encoded, length_drop]
      omega
    · exact List.drop_left' length_encoded
    · rw [List.take_left' length_encoded, parse_encoded fits made summed, flags]
  · intro bytes source destination
    refine ⟨parse_ne_overflow, fun segment accepted => ?_⟩
    obtain ⟨_, _, options, walked, rfl⟩ := parse_sound accepted
    obtain ⟨met, walk, same⟩ := parseOptionsFrom_sound walked
    refine ⟨rfl, met, fun other => ⟨fun walkToo => walkToo.unique walk, fun same => same ▸ walk⟩,
      ?_⟩
    exact same.trans (mssAfter_none met)

/-- An opening segment that states a maximum segment size and carries three bytes. -/
def opening : Segment where
  source := 49152
  destination := 80
  sequence := 4294967295
  acknowledgement := none
  flags := ⟨0x12⟩
  window := 65535
  options := { mss := some 1460 }
  payload := [1, 2, 3]

theorem parse_faithful_opening :
    ∃ written, opening.write (replicate 64 255) (.v4 1) (.v4 2) = (.ok 27, written) ∧
      parse (written.take 27) (.v4 1) (.v4 2) = .ok { opening with flags := ⟨0x02⟩ } := by
  obtain ⟨written, wrote, _, _, parsed⟩ := parse_faithful.1 opening (.v4 1) (.v4 2)
    (replicate 64 255) trivial (by decide) (by decide)
  exact ⟨written, wrote, parsed⟩

end Segment

end Bhaskix.Net.Wire
