import Bhaskix.Hosted.Arguments

namespace Bhaskix.Hosted.Exec

open Library List

abbrev imageBytes : Nat := 4096
abbrev randomBytes : Nat := 16
abbrev minSignalStack : Nat := 2048

structure ProcessInfo where
  entry : UInt64
  phdr : UInt64
  phent : UInt64
  phnum : UInt64
  pageSize : UInt64
  hwcap : UInt64
  random : Bytes
  sized : random.length = randomBytes

inductive StackError
  | tooLarge (needed capacity : Nat)
  | tooManyStrings (count limit : Nat)
  | overflow
  deriving DecidableEq, Repr

structure Builder where
  args : List Bytes
  env : List Bytes
  info : ProcessInfo

def put (buffer : Bytes) (place : Nat) (bytes : Bytes) : Bytes :=
  buffer.take place ++ (bytes ++ buffer.drop (place + bytes.length))

def layStrings (base : Nat) : Bytes → Nat → List Bytes → Bytes × Nat × List Nat
  | buffer, cursor, [] => (buffer, cursor, [])
  | buffer, cursor, string :: rest =>
    let laid := layStrings base (put (put buffer cursor string) (cursor + string.length) [0])
      (cursor + string.length + 1) rest
    (laid.1, laid.2.1, (base + cursor) :: laid.2.2)

def putWords : Bytes → Nat → List Nat → Bytes
  | buffer, _, [] => buffer
  | buffer, place, word :: words => putWords (put buffer place (leBytes 8 word)) (place + 8) words

namespace Builder

variable (builder : Builder)

def auxvPairs (random : Nat) : List (Nat × Nat) :=
  [(6, builder.info.pageSize.toNat), (3, builder.info.phdr.toNat), (4, builder.info.phent.toNat),
    (5, builder.info.phnum.toNat), (9, builder.info.entry.toNat), (16, builder.info.hwcap.toNat),
    (25, random), (51, minSignalStack)]

def stringsStart : Nat :=
  ((1 + (builder.args.length + 1) + (builder.env.length + 1) +
    ((builder.auxvPairs 0).length * 2 + 2))
    * 8 + 15) / 16 * 16

def needed : Nat := builder.stringsStart + (Exec.size builder.args + Exec.size builder.env) +
    randomBytes

def stringRanges (base : Nat) : (Nat × Nat) × (Nat × Nat) :=
  let start := base + builder.stringsStart
  ((start, start + Exec.size builder.args),
    (start + Exec.size builder.args, start + Exec.size builder.args + Exec.size builder.env))

def vectors (args env : List Nat) : List Nat := builder.args.length :: (args ++ 0 :: (env ++ [0]))

def words (args env : List Nat) (random : Nat) : List Nat :=
  builder.vectors args env ++
    ((builder.auxvPairs random).flatMap (fun pair => [pair.1, pair.2]) ++ [0, 0])

/-- The image, and where in it the stack pointer is to be. An address that overflows stops it. -/
def build (buffer : Bytes) (base : Nat) : Except StackError (Bytes × Nat) :=
  let count := max builder.args.length builder.env.length
  if maxStrings < count then .error (.tooManyStrings count maxStrings)
  else if buffer.length < builder.needed then .error (.tooLarge builder.needed buffer.length)
  else
    let args := layStrings base buffer builder.stringsStart builder.args
    let env := layStrings base args.1 args.2.1 builder.env
    if 2 ^ 64 ≤ base + env.2.1 then .error .overflow
    else
      .ok (putWords (put env.1 env.2.1 builder.info.random) 0
        (builder.words args.2.2 env.2.2 (base + env.2.1)), 0)

end Builder

def pointersAt (image : Bytes) : Nat → Nat → Option (List Nat)
  | 0, _ => none
  | fuel + 1, place => (field image place 8).bind fun word =>
    if word = 0 then some [] else (pointersAt image fuel (place + 8)).map (word :: ·)

def stringAt (image : Bytes) (base pointer : Nat) : Option Bytes :=
  upToNul (image.drop (pointer - base))

/-- What a program mapped at `base` finds at its stack pointer: the count and the two vectors, each
pointer followed to its NUL. -/
def entered (image : Bytes) (base rsp : Nat) : Option (Nat × List Bytes × List Bytes) := do
  let argc ← field image rsp 8
  let argv ← pointersAt image image.length (rsp + 8)
  let envp ← pointersAt image image.length (rsp + 8 + (argv.length + 1) * 8)
  let args ← argv.mapM (stringAt image base)
  let env ← envp.mapM (stringAt image base)
  return (argc, args, env)

theorem length_put {buffer bytes : Bytes} {place : Nat}
    (room : place + bytes.length ≤ buffer.length) :
    (put buffer place bytes).length = buffer.length := by
  simp only [put, length_append, length_take, length_drop]
  omega

theorem put_put {buffer first second : Bytes} {place : Nat}
    (room : place + first.length ≤ buffer.length) :
    put (put buffer place first) (place + first.length) second =
      put buffer place (first ++ second) := by
  have front : (buffer.take place ++ first).length = place + first.length := by
    rw [length_append, length_take]
    omega
  have head : (put buffer place first).take (place + first.length) =
    buffer.take place ++ first := by
    rw [put, ← append_assoc, take_left' front]
  have tail : (put buffer place first).drop (place + first.length + second.length) =
      buffer.drop (place + (first ++ second).length) := by
    rw [put, ← append_assoc, ← drop_drop, drop_left' front, drop_drop,
      length_append]
    congr 1
    omega
  rw [put, head, tail, put]
  simp

variable {strings : List Bytes}

theorem layStrings_cursor : ∀ {buffer : Bytes} {cursor : Nat},
    (layStrings base buffer cursor strings).2.1 = cursor + size strings := by
  induction strings with
  | nil =>
    intro buffer cursor
    rfl
  | cons string strings later =>
    intro buffer cursor
    rw [size_cons, layStrings]
    exact later.trans (by omega)

theorem layStrings_eq {base : Nat} {strings : List Bytes} : ∀ {buffer : Bytes} {cursor : Nat},
    cursor + size strings ≤ buffer.length →
      (layStrings base buffer cursor strings).1 =
        put buffer cursor (strings.flatMap (· ++ [0])) := by
  induction strings with
  | nil =>
    intro buffer cursor _
    simp [layStrings, put]
  | cons string strings later =>
    intro buffer cursor room
    rw [size_cons] at room
    have joined : put (put buffer cursor string) (cursor + string.length) [0] =
        put buffer cursor (string ++ [0]) := put_put (by omega)
    have length : (put buffer cursor (string ++ [0])).length = buffer.length :=
      length_put (by rw [length_append, length_singleton]; omega)
    have laid := @later (put buffer cursor (string ++ [0])) (cursor + string.length + 1) (by omega)
    rw [layStrings, joined]
    change (layStrings base (put buffer cursor (string ++ [0])) _ strings).1 = _
    rw [laid, show cursor + string.length + 1 = cursor + (string ++ [0]).length by simp; omega,
      put_put (by rw [length_append, length_singleton]; omega), flatMap_cons]

theorem putWords_eq {words : List Nat} : ∀ {buffer : Bytes} {place : Nat},
    place + words.length * 8 ≤ buffer.length →
      putWords buffer place words = put buffer place (words.flatMap (leBytes 8)) := by
  induction words with
  | nil =>
    intro buffer place _
    simp [putWords, put]
  | cons word words later =>
    intro buffer place room
    rw [length_cons] at room
    have length := @length_put buffer (leBytes 8 word) place (by rw [length_leBytes]; omega)
    rw [putWords, later (by omega), flatMap_cons]
    have joined := @put_put buffer (leBytes 8 word) (words.flatMap (leBytes 8)) place
      (by rw [length_leBytes]; omega)
    rwa [length_leBytes] at joined

theorem upToNul_append (plain : 0 ∉ string) : upToNul (string ++ 0 :: rest) = some string := by
  induction string with
  | nil => rfl
  | cons byte string later =>
    rw [mem_cons, not_or] at plain
    rw [cons_append, upToNul, if_neg (Ne.symm plain.1), later plain.2]
    rfl

theorem layStrings_addresses {base : Nat} {strings : List Bytes} : ∀ {buffer : Bytes}
    {cursor : Nat}, (layStrings base buffer cursor strings).2.2.length = strings.length ∧
      ∀ address ∈ (layStrings base buffer cursor strings).2.2,
        base + cursor ≤ address ∧ address < base + cursor + size strings := by
  induction strings with
  | nil =>
    intro buffer cursor
    exact ⟨rfl, nofun⟩
  | cons string strings later =>
    intro buffer cursor
    obtain ⟨length, near⟩ := @later
      (put (put buffer cursor string) (cursor + string.length) [0]) (cursor + string.length + 1)
    rw [layStrings, size_cons]
    refine ⟨congrArg (· + 1) length, ?_⟩
    intro address among
    rcases mem_cons.mp among with rfl | rest
    · omega
    · have bounds := near address rest
      omega

variable {image buffer bytes : Bytes}

theorem stringAt_layStrings :
    ∀ {buffer rest : Bytes} {cursor : Nat}, (∀ string ∈ strings, 0 ∉ string) →
      image.drop cursor = strings.flatMap (· ++ [0]) ++ rest →
        (layStrings base buffer cursor strings).2.2.mapM (stringAt image base) = some strings := by
  induction strings with
  | nil =>
    intro buffer rest cursor _ _
    rfl
  | cons string strings later =>
    intro buffer rest cursor plain block
    rw [flatMap_cons, append_assoc, append_assoc] at block
    have found := @later (put (put buffer cursor string) (cursor + string.length) [0]) rest
      (cursor + string.length + 1) (fun other among => plain other (mem_cons_of_mem _ among))
      (by rw [Nat.add_assoc, ← drop_drop, block, ← append_assoc string]
          exact drop_left' (by simp))
    have here : stringAt image base (base + cursor) = some string := by
      rw [stringAt, Nat.add_sub_cancel_left, block]
      exact upToNul_append (plain string mem_cons_self)
    rw [layStrings, mapM_cons, here, found]
    rfl

theorem pointersAt_eq {words : List Nat} : ∀ {place fuel : Nat},
    (∀ index (inside : index < words.length),
      field image (place + index * 8) 8 = some (words.get ⟨index, inside⟩)) →
      (∀ word ∈ words, word ≠ 0) → field image (place + words.length * 8) 8 = some 0 →
        words.length < fuel → pointersAt image fuel place = some words := by
  induction words with
  | nil =>
    intro place fuel _ _ null enough
    obtain ⟨fuel, rfl⟩ := Nat.exists_eq_succ_of_ne_zero (Nat.ne_zero_of_lt enough)
    rw [pointersAt, show field image place 8 = some 0 by simpa using null]
    rfl
  | cons word words later =>
    intro place fuel held real null enough
    obtain ⟨fuel, rfl⟩ := Nat.exists_eq_succ_of_ne_zero (Nat.ne_zero_of_lt enough)
    have first : field image place 8 = some word := by
      simpa using held 0 (Nat.zero_lt_succ _)
    have rest := @later (place + 8) fuel (fun index inside => by
        have at' := held (index + 1) (Nat.succ_lt_succ inside)
        rw [Nat.succ_mul, Nat.add_comm (index * 8), ← Nat.add_assoc] at at'
        exact at')
      (fun other among => real other (mem_cons_of_mem _ among))
      (by rw [← null, length_cons]; congr 1; omega) (Nat.lt_of_succ_lt_succ enough)
    rw [pointersAt, first, Option.bind_some, if_neg (real word mem_cons_self), rest]
    rfl

theorem drop_put (room : place ≤ buffer.length) :
    (put buffer place bytes).drop place = bytes ++ buffer.drop (place + bytes.length) := by
  rw [put, drop_left' (by rw [length_take]; omega)]

theorem drop_put_zero (past : bytes.length ≤ place) :
    (put buffer 0 bytes).drop place = buffer.drop place := by
  rw [put, take_zero, nil_append, drop_append, drop_eq_nil_of_le past,
    nil_append, drop_drop]
  congr 1
  omega

namespace Builder

variable {builder : Builder} {buffer : Bytes}

theorem build_eq_ok (built : builder.build buffer base = .ok (image, rsp)) :
    ∃ args env random, rsp = 0 ∧ builder.args.length ≤ maxStrings ∧
      builder.env.length ≤ maxStrings ∧ builder.needed ≤ buffer.length ∧
      random = base + (builder.stringsStart + (size builder.args + size builder.env)) ∧
      random < 2 ^ 64 ∧ args = (layStrings base buffer builder.stringsStart builder.args).2.2 ∧
      env = (layStrings base (layStrings base buffer builder.stringsStart builder.args).1
        (builder.stringsStart + size builder.args) builder.env).2.2 ∧
      image = putWords (put buffer builder.stringsStart ((builder.args.flatMap (· ++ [0])) ++
        ((builder.env.flatMap (· ++ [0])) ++ builder.info.random))) 0
        (builder.words args env random) := by
  rw [build] at built
  dsimp only at built
  split at built
  · cases built
  case isFalse few =>
    split at built
    · cases built
    case isFalse enough =>
      rw [needed] at enough
      have length : (put buffer builder.stringsStart
          (builder.args.flatMap (· ++ [0]))).length = buffer.length :=
        length_put (by change _ + size builder.args ≤ _; omega)
      have args := @layStrings_eq base builder.args buffer builder.stringsStart (by omega)
      have env := @layStrings_eq base builder.env
        (put buffer builder.stringsStart (builder.args.flatMap (· ++ [0])))
        (builder.stringsStart + size builder.args) (by omega)
      have joined := @put_put buffer (builder.args.flatMap (· ++ [0]))
        (builder.env.flatMap (· ++ [0])) builder.stringsStart
        (by change _ + size builder.args ≤ _; omega)
      rw [layStrings_cursor, args, layStrings_cursor, env] at built
      split at built
      · cases built
      case isFalse low =>
        cases built
        refine ⟨_, _, _, rfl, by omega, by omega, by rw [needed]; omega, rfl, by omega, rfl,
          by rw [args], ?_⟩
        congr 1
        · change put (put _ (_ + (builder.args.flatMap (· ++ [0])).length) _) _ _ = _
          have filled := @put_put buffer (builder.args.flatMap (· ++ [0]) ++
            builder.env.flatMap (· ++ [0])) builder.info.random builder.stringsStart (by
              rw [length_append]
              change _ + (size builder.args + size builder.env) ≤ _
              omega)
          rw [length_append, append_assoc] at filled
          rw [joined]
          exact (congrArg (put _ · _) (Nat.add_assoc _ _ _)).trans filled
        · rw [Nat.add_assoc]

theorem length_words (args env : List Nat) (random : Nat) :
    (builder.words args env random).length = args.length + env.length + 21 := by
  simp [words, vectors, auxvPairs]
  omega

theorem stringsStart_bounds :
    (builder.args.length + builder.env.length + 21) * 8 ≤ builder.stringsStart ∧
      builder.stringsStart ≤ (builder.args.length + builder.env.length + 21) * 8 + 15 := by
  simp only [stringsStart, auxvPairs, length_cons, length_nil]
  omega

theorem entered_eq {args env : List Nat}
    (laid : image = (builder.vectors args env).flatMap (leBytes 8) ++ rest)
    (fit : ∀ word ∈ builder.vectors args env, word < 256 ^ 8)
    (real : ∀ word ∈ args, word ≠ 0) (real' : ∀ word ∈ env, word ≠ 0)
    (found : args.mapM (stringAt image base) = some strings)
    (found' : env.mapM (stringAt image base) = some strings') :
    entered image base 0 = some (builder.args.length, strings, strings') := by
  have held : ∀ index (inside : index < (builder.vectors args env).length),
      field image (index * 8) 8 = some ((builder.vectors args env).get ⟨index, inside⟩) := by
    intro index inside
    rw [laid]
    exact field_flatMap rest (builder.vectors args env) fit index inside
  have count : (builder.vectors args env).length = args.length + env.length + 3 := by
    simp only [vectors, length_cons, length_append, length_nil]
    omega
  have room : args.length + env.length + 3 ≤ image.length := by
    rw [laid, length_append, length_flatMap, ← count]
    simp
    omega
  have word : ∀ index value, (builder.vectors args env)[index]? = some value →
      field image (index * 8) 8 = some value := by
    intro index value at'
    obtain ⟨inside, same⟩ := List.getElem?_eq_some_iff.mp at'
    exact (held index inside).trans (congrArg some same)
  have argc : field image 0 8 = some builder.args.length := word 0 _ rfl
  have argv : pointersAt image image.length (0 + 8) = some args := by
    refine pointersAt_eq ?_ real ?_ (by omega)
    · intro index inside
      rw [show 0 + 8 + index * 8 = (index + 1) * 8 by omega]
      exact word _ _ (by simp [vectors, List.getElem?_append_left inside])
    · rw [show 0 + 8 + args.length * 8 = (args.length + 1) * 8 by omega]
      exact word _ _ (by simp [vectors])
  have envp : pointersAt image image.length (0 + 8 + (args.length + 1) * 8) = some env := by
    refine pointersAt_eq ?_ real' ?_ (by omega)
    · intro index inside
      rw [show 0 + 8 + (args.length + 1) * 8 + index * 8 = (args.length + (index + 1) + 1) * 8 by
        omega]
      refine word _ _ ?_
      rw [vectors, List.getElem?_cons_succ, List.getElem?_append_right (by omega),
        Nat.add_sub_cancel_left, List.getElem?_cons_succ, List.getElem?_append_left inside]
      exact List.getElem?_eq_getElem inside
    · rw [show 0 + 8 + (args.length + 1) * 8 + env.length * 8 =
        (args.length + (env.length + 1) + 1) * 8 by omega]
      exact word _ _ (by simp [vectors])
  rw [entered, argc]
  change (pointersAt image image.length (0 + 8)).bind _ = _
  rw [argv]
  change (pointersAt image image.length (0 + 8 + (args.length + 1) * 8)).bind _ = _
  rw [envp]
  change (args.mapM (stringAt image base)).bind _ = _
  rw [found]
  change (env.mapM (stringAt image base)).bind _ = _
  rw [found']
  rfl

theorem build_entered (plain : ∀ string ∈ builder.args ++ builder.env, 0 ∉ string)
    (built : builder.build buffer base = .ok (image, rsp)) :
    entered image base rsp = some (builder.args.length, builder.args, builder.env) ∧
      slice image ((builder.stringRanges base).1.1 - base)
        ((builder.stringRanges base).1.2 - base) = builder.args.flatMap (· ++ [0]) ∧
      slice image ((builder.stringRanges base).2.1 - base)
        ((builder.stringRanges base).2.2 - base) = builder.env.flatMap (· ++ [0]) := by
  obtain ⟨args, env, random, rfl, few, few', needed, at', low, first, second, made⟩ :=
    build_eq_ok built
  obtain ⟨below, _⟩ := @stringsStart_bounds builder
  obtain ⟨count, near⟩ := @layStrings_addresses base builder.args buffer builder.stringsStart
  obtain ⟨count', near'⟩ := @layStrings_addresses base builder.env
    (layStrings base buffer builder.stringsStart builder.args).1
    (builder.stringsStart + size builder.args)
  rw [← first] at count near
  rw [← second] at count' near'
  rw [Builder.needed] at needed
  have long := @length_words builder args env random
  have room : ((builder.words args env random).flatMap (leBytes 8)).length ≤
    builder.stringsStart := by
    rw [length_flatMap]
    simp only [length_leBytes, map_const', sum_replicate_nat]
    omega
  have length : (put buffer builder.stringsStart ((builder.args.flatMap (· ++ [0])) ++
      ((builder.env.flatMap (· ++ [0])) ++ builder.info.random))).length = buffer.length := by
    apply length_put
    rw [length_append, length_append, builder.info.sized]
    change _ + (size builder.args + (size builder.env + _)) ≤ _
    omega
  rw [putWords_eq (by omega)] at made
  -- Above the vectors stand the strings, those of the arguments first.
  obtain ⟨above, block⟩ : ∃ above, image.drop builder.stringsStart =
      builder.args.flatMap (· ++ [0]) ++ (builder.env.flatMap (· ++ [0]) ++ above) :=
    ⟨_, by rw [made, drop_put_zero room, drop_put (by omega), append_assoc, append_assoc]⟩
  have block' : image.drop (builder.stringsStart + size builder.args) =
      builder.env.flatMap (· ++ [0]) ++ above := by
    rw [← drop_drop, block]
    exact drop_left' rfl
  refine ⟨?_, ?_, ?_⟩
  · obtain ⟨rest, front⟩ : ∃ rest, image = (builder.words args env random).flatMap (leBytes 8) ++
        rest := ⟨_, by rw [made, put, take_zero, nil_append]⟩
    have laid : image = (builder.vectors args env).flatMap (leBytes 8) ++ (((builder.auxvPairs
        random).flatMap (fun pair : Nat × Nat => [pair.1, pair.2]) ++ [0, 0]).flatMap (leBytes 8) ++
          rest) := by
      rw [front, words, flatMap_append, append_assoc]
    refine entered_eq laid ?_ ?_ ?_ ?_ ?_
    · have bound : (256 : Nat) ^ 8 = 2 ^ 64 := by decide
      intro word among
      rw [bound]
      rw [vectors, mem_cons, mem_append, mem_cons, mem_append,
        mem_singleton] at among
      rcases among with rfl | among | rfl | among | rfl
      · exact Nat.lt_of_le_of_lt few (by decide)
      · have bounds := near word among
        omega
      · exact Nat.two_pow_pos 64
      · have bounds := near' word among
        omega
      · exact Nat.two_pow_pos 64
    · intro word among
      have bounds := near word among
      omega
    · intro word among
      have bounds := near' word among
      omega
    · rw [first]
      exact stringAt_layStrings
        (fun string among => plain string (mem_append_left _ among)) block
    · rw [second]
      exact stringAt_layStrings
        (fun string among => plain string (mem_append_right _ among)) block'
  · rw [stringRanges, slice]
    dsimp only
    rw [Nat.add_sub_cancel_left, block, Nat.add_assoc, Nat.add_sub_cancel_left,
      Nat.add_sub_cancel_left]
    exact take_left' rfl
  · rw [stringRanges, slice]
    dsimp only
    rw [show base + builder.stringsStart + size builder.args - base =
      builder.stringsStart + size builder.args by omega, block']
    exact take_left' (by change size builder.env = _; omega)

theorem build_page {info : ProcessInfo} {args env : List Bytes} (few : args.length ≤ maxStrings)
    (few' : env.length ≤ maxStrings) (short : Exec.size args + Exec.size env ≤ maxBytes)
    (room : imageBytes ≤ buffer.length) (low : base + imageBytes ≤ 2 ^ 64) :
    ∃ result, (⟨args, env, info⟩ : Builder).build buffer base = .ok result := by
  obtain ⟨_, start⟩ := @stringsStart_bounds ⟨args, env, info⟩
  dsimp only [maxStrings, maxBytes, imageBytes] at few few' short room low start
  have fits : (⟨args, env, info⟩ : Builder).needed ≤ buffer.length := by
    dsimp only [needed, randomBytes]
    omega
  rw [build]
  dsimp only [maxStrings]
  rw [if_neg (by omega), if_neg (by omega), layStrings_cursor, layStrings_cursor, if_neg (by omega)]
  exact ⟨_, rfl⟩

end Builder

variable {memory : Memory}

theorem Spells.plain : ∀ {address : Nat}, Spells memory address string → 0 ∉ string := by
  induction string with
  | nil =>
    intro address _
    exact List.not_mem_nil
  | cons byte string later =>
    intro address spells
    rw [mem_cons, not_or]
    exact ⟨fun same => spells.2.1 same.symm, later spells.2.2⟩

theorem Points.plain : ∀ {slot : Nat},
    Points memory slot strings → ∀ string ∈ strings, 0 ∉ string := by
  induction strings with
  | nil => nofun
  | cons string strings later =>
    intro slot points other among
    obtain ⟨⟨pointer, _, _, spells, _⟩, rest⟩ := points
    rcases mem_cons.mp among with rfl | inside
    · exact spells.plain
    · exact later rest other inside

theorem Pointed.plain
    (pointed : Pointed memory vector strings) : ∀ string ∈ strings, 0 ∉ string := by
  unfold Pointed at pointed
  split at pointed
  · rw [pointed]
    nofun
  · exact Points.plain pointed

/-- A program finds the strings its caller passed, and the reader stays in the pages the call names.
-/
theorem exec_finds_strings (memory : Memory) (argv envp : Nat) :
    (∀ args env, Pointed memory argv args → Pointed memory envp env → args.length ≤ maxStrings →
      env.length ≤ maxStrings → size args + size env ≤ maxBytes →
        ∃ self, (Arguments.read memory argv envp).2 = .ok self) ∧
      (∀ self, (Arguments.read memory argv envp).2 = .ok self → ∃ args env,
        Pointed memory argv args ∧ Pointed memory envp env ∧
        self.arguments maxStrings = .ok args ∧ self.environment maxStrings = .ok env ∧
        ∀ info buffer base, (imageBytes ≤ buffer.length → base + imageBytes ≤ 2 ^ 64 →
            ∃ result, (⟨args, env, info⟩ : Builder).build buffer base = .ok result) ∧
          ∀ image rsp, (⟨args, env, info⟩ : Builder).build buffer base = .ok (image, rsp) →
            entered image base rsp = some (args.length, args, env) ∧
            slice image (((⟨args, env, info⟩ : Builder).stringRanges base).1.1 - base)
              (((⟨args, env, info⟩ : Builder).stringRanges base).1.2 - base) =
                args.flatMap (· ++ [0]) ∧
            slice image (((⟨args, env, info⟩ : Builder).stringRanges base).2.1 - base)
              (((⟨args, env, info⟩ : Builder).stringRanges base).2.2 - base) =
                env.flatMap (· ++ [0])) ∧
      (∀ errno, (Arguments.read memory argv envp).2 = .error errno ↔
        Passed memory argv envp (.error errno)) ∧
      Within (fun address => NamedBy memory argv address ∨ NamedBy memory envp address)
        (Arguments.read memory argv envp).1 := by
  obtain ⟨⟨result, passed, done⟩, within⟩ := Arguments.read_passed memory argv envp
  refine ⟨?_, ?_, ?_, within⟩
  · intro args env pointed pointed' few few' short
    have both : Passed memory argv envp (.ok (args, env)) :=
      .both (listed_ok_iff.mpr ⟨pointed, few, by omega⟩)
        (listed_ok_iff.mpr ⟨pointed', few', by omega⟩)
    cases passed.unique both
    obtain ⟨self, read, _⟩ := done
    exact ⟨self, read⟩
  · intro self read
    cases passed with
    | badArguments listed | badEnvironment listed listed' => cases read.symm.trans done
    | both listed listed' =>
      obtain ⟨other, same, args, env⟩ := done
      cases read.symm.trans same
      obtain ⟨pointed, few, short⟩ := listed_ok_iff.mp listed
      obtain ⟨pointed', few', short'⟩ := listed_ok_iff.mp listed'
      refine ⟨_, _, pointed, pointed', args, env, ?_⟩
      intro info buffer base
      refine ⟨fun room low => Builder.build_page few few' (by omega) room low, ?_⟩
      intro image rsp built
      refine Builder.build_entered ?_ built
      intro string among
      rcases mem_append.mp among with inside | inside
      · exact pointed.plain string inside
      · exact pointed'.plain string inside
  · intro errno
    constructor
    · intro read
      cases passed with
      | badArguments listed =>
        cases read.symm.trans done
        exact .badArguments listed
      | badEnvironment listed listed' =>
        cases read.symm.trans done
        exact .badEnvironment listed listed'
      | both listed listed' =>
        obtain ⟨self, same, _⟩ := done
        cases read.symm.trans same
    · intro refused
      cases passed.unique refused
      exact done

def onePage : Memory := fun number => if number = 1 then
  some fun offset => if offset = 0 ∨ offset = 1 then 16 else if offset = 16 then 97 else 0
  else none

theorem exec_finds_strings_one :
    Pointed onePage 4096 [[97]] ∧ ∃ args env, Pointed onePage 4096 args ∧ Pointed onePage 0 env ∧
      ∀ info buffer base, imageBytes ≤ buffer.length → base + imageBytes ≤ 2 ^ 64 →
        ∃ image rsp, (⟨args, env, info⟩ : Builder).build buffer base = .ok (image, rsp) ∧
          entered image base rsp = some (args.length, args, env) := by
  have pointed : Pointed onePage 4096 [[97]] := by
    rw [Pointed, if_neg (by decide)]
    exact ⟨⟨4112, by decide, by decide, ⟨by decide, by decide, trivial⟩, by decide⟩,
      show onePage.word 4104 = some 0 by decide⟩
  obtain ⟨finds, lays, _⟩ := exec_finds_strings onePage 4096 0
  obtain ⟨self, read⟩ := finds [[97]] [] pointed rfl (by decide) (by decide) (by decide)
  obtain ⟨args, env, listed, listed', _, _, built⟩ := lays self read
  refine ⟨pointed, args, env, listed, listed', fun info buffer base room low => ?_⟩
  obtain ⟨⟨image, rsp⟩, done⟩ := (built info buffer base).1 room low
  exact ⟨image, rsp, done, ((built info buffer base).2 image rsp done).1⟩

end Bhaskix.Hosted.Exec
