import Bhaskix.Library.Checked

/-!
Virtual ranges and the region map of an address space: a sorted vector of disjoint regions. What
the rest of the kernel reads of it is the policy each page is under, and every operation is
stated by what it does to that.
-/

namespace Bhaskix.Mm

open List

abbrev pageSize : Nat := 4096

inductive Protection
  | none
  | readOnly
  | readWrite
  | readExecute
deriving DecidableEq

namespace Protection

def writable : Protection → Bool
  | .readWrite => true
  | _ => false

def executable : Protection → Bool
  | .readExecute => true
  | _ => false

def present : Protection → Bool
  | .none => false
  | _ => true

variable {protection : Protection}

theorem not_writable_of_executable
    (executable : protection.executable = true) : protection.writable = false := by
  cases protection <;> first | rfl | cases executable

theorem present_of_writable (writable : protection.writable = true) :
    protection.present = true := by
  cases protection <;> first | rfl | cases writable

end Protection

/-- A range of whole pages, by the number of its first page. The source keeps byte addresses. -/
structure VirtRange where
  first : Nat
  pages : Nat
  nonempty : 0 < pages
  fits : (first + pages) * pageSize < 2 ^ 64
deriving DecidableEq

namespace VirtRange

def stop (range : VirtRange) : Nat :=
  range.first + range.pages

def start (range : VirtRange) : Nat :=
  range.first * pageSize

instance : Membership Nat VirtRange :=
  ⟨fun range page => range.first ≤ page ∧ page < range.stop⟩

variable {range : VirtRange} {page : Nat} {other : VirtRange}

theorem mem_iff : page ∈ range ↔ range.first ≤ page ∧ page < range.stop :=
  Iff.rfl

instance (range : VirtRange) (page : Nat) : Decidable (page ∈ range) :=
  decidable_of_iff _ mem_iff.symm

def overlaps (range other : VirtRange) : Bool :=
  range.first < other.stop && other.first < range.stop

def fromPages (start pages : Nat) : Option VirtRange :=
  if fits : start % pageSize = 0 ∧ 0 < pages ∧ start + pages * pageSize < 2 ^ 64 then
    some ⟨start / pageSize, pages, fits.2.1, by simp only [pageSize] at *; omega⟩
  else none

def pagesIter (range : VirtRange) : List Nat :=
  List.range' range.first range.pages

theorem mem_pagesIter : page ∈ range.pagesIter ↔ page ∈ range := by
  rw [pagesIter, mem_range'_1, mem_iff, stop]

theorem first_mem (range : VirtRange) : range.first ∈ range :=
  ⟨Nat.le_refl _, Nat.lt_add_of_pos_right range.nonempty⟩

theorem first_lt_stop (range : VirtRange) : range.first < range.stop :=
  range.first_mem.2

theorem overlaps_iff : range.overlaps other = true ↔ ∃ page, page ∈ range ∧ page ∈ other := by
  have nonempty := range.first_lt_stop
  have nonempty' := other.first_lt_stop
  simp only [overlaps, Bool.and_eq_true, decide_eq_true_eq, mem_iff]
  constructor
  · exact fun meets => ⟨max range.first other.first, by omega⟩
  · rintro ⟨page, inside⟩
    omega

theorem fromPages_eq_some {start pages : Nat} :
    fromPages start pages = some range ↔ range.start = start ∧ range.pages = pages := by
  unfold fromPages
  constructor
  · intro found
    split at found
    · next fits =>
        cases found
        have aligned : start % 4096 = 0 := fits.1
        simp only [VirtRange.start, pageSize, and_true]
        omega
    · cases found
  · rintro ⟨rfl, rfl⟩
    have fits := range.fits
    rw [Nat.add_mul] at fits
    rw [dif_pos ⟨Nat.mul_mod_left _ _, range.nonempty, fits⟩]
    have first : range.start / pageSize = range.first := Nat.mul_div_cancel _ (by decide)
    simp only [first]

theorem exists_between {low high : Nat} (lt : low < high) (le : high ≤ range.stop) :
    ∃ piece : VirtRange, piece.first = low ∧ piece.stop = high := by
  have total := Nat.add_sub_cancel' lt.le
  have fits := Nat.mul_le_mul_right pageSize (total.le.trans le)
  exact ⟨⟨low, high - low, Nat.sub_pos_of_lt lt, fits.trans_lt range.fits⟩, rfl, total⟩

theorem start_inj (same : range.start = other.start) : range.first = other.first := by
  simp only [VirtRange.start, pageSize] at same
  omega

end VirtRange

inductive Backing
  | anonymous
  | direct (physical : Nat)
  | reserved
  | shared (object : Nat)
deriving DecidableEq

def Backing.at : Backing → Nat → Backing
  | .direct physical, offset => .direct (physical + offset)
  | backing, _ => backing

structure RegionFlags where
  copyOnWrite : Bool := false
  locked : Bool := false
  populate : Bool := false
deriving DecidableEq

structure Policy where
  protection : Protection
  backing : Backing
  flags : RegionFlags := {}
deriving DecidableEq

structure VmRegion extends Policy where
  range : VirtRange
deriving DecidableEq

def VmRegion.new (range : VirtRange) (protection : Protection) (backing : Backing) : VmRegion :=
  { range, protection, backing }

@[simp] theorem VmRegion.range_new (range : VirtRange) (protection : Protection)
    (backing : Backing) : (VmRegion.new range protection backing).range = range :=
  rfl

inductive RangeMapError
  | overlaps (index : Nat)
  | notFound
  | outOfMemory
deriving DecidableEq

structure RangeMap where
  regions : List VmRegion
  sorted : regions.Pairwise fun earlier later => earlier.range.stop ≤ later.range.first

namespace RangeMap

open VirtRange (overlaps overlaps_iff fromPages fromPages_eq_some mem_iff)

def new : RangeMap :=
  ⟨[], .nil⟩

def search (regions : List VmRegion) (page : Nat) : Nat → Nat → Nat → Nat
  | 0, low, _ => low
  | fuel + 1, low, high =>
    if low < high then
      let mid := (low + high) / 2
      match regions[mid]? with
      | some region =>
        if region.range.first ≤ page then search regions page fuel (mid + 1) high
        else search regions page fuel low mid
      | none => low
    else low

variable (map : RangeMap) (page : Nat)

def indexOf : Option Nat :=
  let low := search map.regions page map.regions.length 0 map.regions.length
  if low = 0 then none
  else
    match map.regions[low - 1]? with
    | some region => if page ∈ region.range then some (low - 1) else none
    | none => none

def find : Option VmRegion :=
  (map.indexOf page).bind fun index => map.regions[index]?

def policyAt : Option Policy :=
  (map.find page).map VmRegion.toPolicy

/-! The binary search: everything below the answer starts at or below the page, everything from
the answer on starts above it. -/

variable {page start : Nat} {map next : RangeMap} {region : VmRegion}
  {range whole wanted piece : VirtRange} {room : Bool} {protection : Protection}

theorem search_spec {regions : List VmRegion}
    (sorted : regions.Pairwise fun earlier later => earlier.range.first ≤ later.range.first) :
    ∀ {fuel low high : Nat}, high ≤ regions.length → high ≤ low + fuel → low ≤ high →
      (∀ index region, index < low → regions[index]? = some region → region.range.first ≤ page) →
      (∀ index region, high ≤ index → regions[index]? = some region → page < region.range.first) →
      (∀ index region, index < search regions page fuel low high →
        regions[index]? = some region → region.range.first ≤ page) ∧
      ∀ index region, search regions page fuel low high ≤ index →
        regions[index]? = some region → page < region.range.first := by
  have ordered : ∀ {i j : Nat} {earlier later : VmRegion}, i ≤ j → regions[i]? = some earlier →
      regions[j]? = some later → earlier.range.first ≤ later.range.first := by
    intro i j earlier later le left right
    obtain ⟨boundLeft, rfl⟩ := List.getElem?_eq_some_iff.mp left
    obtain ⟨boundRight, rfl⟩ := List.getElem?_eq_some_iff.mp right
    rcases Nat.lt_or_eq_of_le le with lt | rfl
    · exact pairwise_iff_getElem.mp sorted i j boundLeft boundRight lt
    · exact Nat.le_refl _
  intro fuel
  induction fuel with
  | zero =>
    intro low high _ fuelled le below above
    obtain rfl : low = high := by omega
    exact ⟨below, above⟩
  | succ fuel induction =>
    intro low high bounded fuelled le below above
    unfold search
    by_cases narrow : low < high
    · have inside : (low + high) / 2 < regions.length := by omega
      simp only [if_pos narrow, List.getElem?_eq_getElem inside]
      have middle : regions[(low + high) / 2]? = some regions[(low + high) / 2] :=
        List.getElem?_eq_getElem inside
      split
      · next start =>
          refine induction bounded (by omega) (by omega) ?_ above
          intro index region small found
          exact le_trans (ordered (by omega) found middle) start
      · next start =>
          refine induction (by omega) (by omega) (by omega) below ?_
          intro index region large found
          exact lt_of_lt_of_le (by omega) (ordered large middle found)
    · rw [if_neg narrow]
      obtain rfl : low = high := by omega
      exact ⟨below, above⟩

theorem search_le (regions : List VmRegion) (page : Nat) :
    ∀ fuel {low high : Nat}, low ≤ high → search regions page fuel low high ≤ high := by
  intro fuel
  induction fuel with
  | zero => exact fun le => le
  | succ fuel induction =>
    intro low high le
    simp only [search]
    split
    · split
      · split
        · exact induction (by omega)
        · exact le_trans (induction (by omega)) (by omega)
      · exact le
    · exact le

theorem first_sorted (map : RangeMap) :
    map.regions.Pairwise fun earlier later => earlier.range.first ≤ later.range.first :=
  map.sorted.imp fun {earlier} {_} apart => le_trans (le_of_lt earlier.range.first_lt_stop) apart

theorem find_eq_some :
    map.find page = some region ↔ region ∈ map.regions ∧ page ∈ region.range := by
  have beyond : ∀ index held, map.regions.length ≤ index → map.regions[index]? = some held →
      page < held.range.first := by
    intro index held large found
    rw [List.getElem?_eq_none large] at found
    cases found
  obtain ⟨below, above⟩ := search_spec map.first_sorted (Nat.le_refl _) (Nat.le_add_left _ 0)
    (Nat.zero_le _) (fun _ _ small => absurd small (Nat.not_lt_zero _)) beyond
  constructor
  · intro found
    obtain ⟨index, located, held⟩ := Option.bind_eq_some_iff.mp found
    simp only [indexOf] at located
    split at located
    · cases located
    split at located
    · next candidate =>
        split at located
        · next inside =>
            cases located
            cases candidate.symm.trans held
            exact ⟨mem_of_getElem? held, inside⟩
        · cases located
    · cases located
  rintro ⟨member, inside⟩
  obtain ⟨index, held⟩ := mem_iff_getElem?.mp member
  have start : index < search map.regions page map.regions.length 0 map.regions.length := by
    by_contra large
    exact absurd inside.1 (Nat.not_le.mpr (above index region (Nat.le_of_not_lt large) held))
  -- A region after this one starts past its end, so past the page.
  have last : search map.regions page map.regions.length 0 map.regions.length ≤ index + 1 := by
    by_contra more
    obtain ⟨bound, rfl⟩ := List.getElem?_eq_some_iff.mp held
    cases next : map.regions[index + 1]? with
    | none =>
      have large := List.getElem?_eq_none_iff.mp next
      have top := search_le map.regions page map.regions.length (Nat.zero_le map.regions.length)
      omega
    | some later =>
      obtain ⟨boundLater, rfl⟩ := List.getElem?_eq_some_iff.mp next
      have apart := pairwise_iff_getElem.mp map.sorted index (index + 1) bound boundLater
        (Nat.lt_succ_self _)
      have early := below (index + 1) _ (by omega) next
      exact absurd inside.2 (by omega)
  have answer : search map.regions page map.regions.length 0 map.regions.length = index + 1 := by
    omega
  have located : map.indexOf page = some index := by
    simp only [indexOf, answer, Nat.add_one_ne_zero, if_false, Nat.add_sub_cancel, held,
      if_pos inside]
  rw [find, located, Option.bind_some, held]

theorem policyAt_of_mem (member : region ∈ map.regions) (inside : page ∈ region.range) :
    map.policyAt page = some region.toPolicy := by
  rw [policyAt, find_eq_some.mpr ⟨member, inside⟩, Option.map_some]

theorem find_eq_none : map.find page = none ↔ ∀ region ∈ map.regions, page ∉ region.range := by
  rw [Option.eq_none_iff_forall_ne_some]
  constructor
  · intro missing region member inside
    exact missing region (find_eq_some.mpr ⟨member, inside⟩)
  · intro clear region found
    obtain ⟨member, inside⟩ := find_eq_some.mp found
    exact clear region member inside

theorem find_congr {other : RangeMap}
    (same : ∀ region, page ∈ region.range → (region ∈ map.regions ↔ region ∈ other.regions)) :
    map.find page = other.find page := by
  cases found : other.find page with
  | none =>
    rw [find_eq_none] at found ⊢
    intro region member inside
    exact found region ((same region inside).mp member) inside
  | some region =>
    rw [find_eq_some] at found ⊢
    exact ⟨(same region found.2).mpr found.1, found.2⟩

theorem find_mem (found : map.find page = some region) : region ∈ map.regions :=
  (find_eq_some.mp found).1

theorem mem_find (found : map.find page = some region) : page ∈ region.range :=
  (find_eq_some.mp found).2

variable {other : VmRegion}

theorem eq_of_mem
    (member : region ∈ map.regions) (member' : other ∈ map.regions) (inside : page ∈ region.range)
    (inside' : page ∈ other.range) : region = other :=
  Option.some.inj ((find_eq_some.mpr ⟨member, inside⟩).symm.trans
    (find_eq_some.mpr ⟨member', inside'⟩))

def earlier (map : RangeMap) (range : VirtRange) : List VmRegion :=
  map.regions.takeWhile fun held => held.range.first < range.first

def later (map : RangeMap) (range : VirtRange) : List VmRegion :=
  map.regions.dropWhile fun held => held.range.first < range.first

theorem earlier_append_later (map : RangeMap) (range : VirtRange) :
    map.earlier range ++ map.later range = map.regions :=
  takeWhile_append_dropWhile

theorem stop_le_of_earlier
    (apart : (map.earlier range).getLast?.any (·.range.overlaps range) = false) :
    ∀ held ∈ map.earlier range, held.range.stop ≤ range.first := by
  have sorted := map.sorted
  rw [← map.earlier_append_later range, pairwise_append] at sorted
  have starts : ∀ held ∈ map.earlier range, held.range.first < range.first := by
    intro held member
    have passed := mem_takeWhile_imp member
    exact of_decide_eq_true passed
  intro held member
  cases found : (map.earlier range).getLast? with
  | none =>
    rw [List.getLast?_eq_none_iff.mp found] at member
    cases member
  | some last =>
    obtain ⟨front, shape⟩ := List.getLast?_eq_some_iff.mp found
    have lastStop : last.range.stop ≤ range.first := by
      have start := starts last (shape ▸ mem_append_right _ (mem_singleton_self _))
      have stop := range.first_lt_stop
      simp only [found, Option.any_some, overlaps, Bool.and_eq_false_iff,
        decide_eq_false_iff_not] at apart
      omega
    rw [shape] at member sorted
    rcases mem_append.mp member with front | final
    · have before := (pairwise_append.mp sorted.1).2.2 held front last
        (mem_singleton_self _)
      exact le_trans before (le_trans (le_of_lt last.range.first_lt_stop) lastStop)
    · rw [mem_singleton.mp final]
      exact lastStop

theorem stop_le_of_later (apart : (map.later range).head?.any (·.range.overlaps range) = false) :
    ∀ held ∈ map.later range, range.stop ≤ held.range.first := by
  have sorted := map.sorted
  rw [← map.earlier_append_later range, pairwise_append] at sorted
  have stops := List.head?_dropWhile_not (fun held : VmRegion => held.range.first < range.first)
    map.regions
  rw [← later] at stops
  intro held member
  cases shape : map.later range with
  | nil =>
    rw [shape] at member
    cases member
  | cons head tail =>
    simp only [shape, List.head?_cons, Option.any_some, overlaps,
      Bool.and_eq_false_iff, decide_eq_false_iff_not] at apart stops
    have headStart : range.stop ≤ head.range.first := by
      have stop := head.range.first_lt_stop
      omega
    rw [shape] at member sorted
    rcases mem_cons.mp member with rfl | rest
    · exact headStart
    · have after := (pairwise_cons.mp sorted.2.1).1 held rest
      exact le_trans headStart (le_trans (le_of_lt head.range.first_lt_stop) after)

theorem sorted_insert
    (before : (map.earlier region.range).getLast?.any (·.range.overlaps region.range) = false)
    (after : (map.later region.range).head?.any (·.range.overlaps region.range) = false) :
    (map.earlier region.range ++ region :: map.later region.range).Pairwise
      fun earlier later => earlier.range.stop ≤ later.range.first := by
  have sorted := map.sorted
  rw [← map.earlier_append_later region.range, pairwise_append] at sorted
  refine pairwise_append.mpr ⟨sorted.1, ?_, ?_⟩
  · exact pairwise_cons.mpr ⟨stop_le_of_later after, sorted.2.1⟩
  intro held member other choice
  rcases mem_cons.mp choice with rfl | rest
  · exact stop_le_of_earlier before held member
  · exact sorted.2.2 held member other rest

def insert (map : RangeMap) (region : VmRegion) (room : Bool) : Except RangeMapError RangeMap :=
  if before : (map.earlier region.range).getLast?.any (·.range.overlaps region.range) then
    .error (.overlaps ((map.earlier region.range).length - 1))
  else if after : (map.later region.range).head?.any (·.range.overlaps region.range) then
    .error (.overlaps (map.earlier region.range).length)
  else if room then
    .ok ⟨map.earlier region.range ++ region :: map.later region.range,
      sorted_insert (Bool.eq_false_of_not_eq_true before) (Bool.eq_false_of_not_eq_true after)⟩
  else .error .outOfMemory

theorem insert_cases (map : RangeMap) (region : VmRegion) (room : Bool) :
    (∃ index, map.insert region room = .error (.overlaps index) ∧
      ∃ held ∈ map.regions, held.range.overlaps region.range = true) ∨
    (∀ held ∈ map.regions, held.range.overlaps region.range = false) ∧ ∃ next : RangeMap,
      next.regions = map.earlier region.range ++ region :: map.later region.range ∧
      map.insert region room = if room then .ok next else .error .outOfMemory := by
  unfold insert
  split
  · next before =>
    obtain ⟨last, found, meets⟩ := (Option.any_eq_true _ _).mp before
    exact .inl ⟨_, rfl, last, (takeWhile_sublist _).mem (mem_of_getLast? found), meets⟩
  next before =>
  split
  · next after =>
    obtain ⟨head, found, meets⟩ := (Option.any_eq_true _ _).mp after
    exact .inl ⟨_, rfl, head, (dropWhile_sublist _).mem (mem_of_head? found), meets⟩
  next after =>
  refine .inr ⟨fun held member => ?_, _, rfl, rfl⟩
  rw [← map.earlier_append_later region.range] at member
  have bounds : held.range.stop ≤ region.range.first ∨ region.range.stop ≤ held.range.first :=
    (mem_append.mp member).imp (stop_le_of_earlier (Bool.eq_false_of_not_eq_true before) held)
      (stop_le_of_later (Bool.eq_false_of_not_eq_true after) held)
  simp only [overlaps, Bool.and_eq_false_iff, decide_eq_false_iff_not]
  omega

theorem insert_eq_ok (inserted : map.insert region room = .ok next) : room = true ∧
    next.regions = map.earlier region.range ++ region :: map.later region.range ∧
      ∀ held ∈ map.regions, held.range.overlaps region.range = false := by
  rcases map.insert_cases region room with ⟨_, refused, _⟩ | ⟨apart, placed, shape, done⟩
  · cases refused.symm.trans inserted
  · rw [done] at inserted
    split at inserted
    · next room =>
      cases inserted
      exact ⟨room, shape, apart⟩
    · cases inserted

theorem mem_insert (inserted : map.insert region room = .ok next) (held : VmRegion) :
    held ∈ next.regions ↔ held = region ∨ held ∈ map.regions := by
  rw [(insert_eq_ok inserted).2.1, ← map.earlier_append_later region.range, mem_append, mem_cons,
    mem_append]
  tauto

theorem insert_of_apart (region : VmRegion)
    (apart : ∀ held ∈ map.regions, held.range.overlaps region.range = false) :
    ∃ next, map.insert region true = .ok next := by
  rcases map.insert_cases region true with ⟨_, _, held, member, meets⟩ | ⟨_, next, _, done⟩
  · cases (apart held member).symm.trans meets
  · exact ⟨next, done⟩

section

variable (inserted : map.insert region room = .ok next)
include inserted

theorem insert_last (past : ∀ held ∈ map.regions, held.range.stop ≤ region.range.first) :
    next.regions = map.regions ++ [region] := by
  have all : map.earlier region.range = map.regions :=
    takeWhile_eq_self_iff.mpr fun held member =>
      decide_eq_true (lt_of_lt_of_le held.range.first_lt_stop (past held member))
  have rest : map.later region.range = [] := by
    have whole := map.earlier_append_later region.range
    rw [all] at whole
    exact append_right_eq_self.mp whole
  rw [(insert_eq_ok inserted).2.1, all, rest]

theorem find_insert (page : Nat) :
    next.find page = if page ∈ region.range then some region else map.find page := by
  split
  · next inside =>
      exact find_eq_some.mpr ⟨(mem_insert inserted region).mpr (.inl rfl), inside⟩
  next outside =>
  apply find_congr
  intro held inside
  rw [mem_insert inserted held]
  constructor
  · rintro (rfl | member)
    · exact absurd inside outside
    · exact member
  · exact .inr

theorem find_of_insert (inside : page ∈ region.range) : map.find page = none :=
  find_eq_none.mpr fun held member covered =>
    Bool.eq_false_iff.mp ((insert_eq_ok inserted).2.2 held member)
      (overlaps_iff.mpr ⟨page, covered, inside⟩)

end

def remove (map : RangeMap) (start : Nat) : Except RangeMapError (VmRegion × RangeMap) :=
  match map.regions.find? fun region => region.range.start = start with
  | none => .error .notFound
  | some region =>
    .ok (region, ⟨map.regions.erase region, map.sorted.sublist List.erase_sublist⟩)

theorem remove_eq_ok (removed : map.remove start = .ok (region, next)) :
    (region ∈ map.regions ∧ region.range.start = start) ∧
      next.regions = map.regions.erase region := by
  unfold remove at removed
  split at removed
  · cases removed
  next found =>
    cases removed
    exact ⟨⟨mem_of_find?_eq_some found, by simpa using List.find?_some found⟩, rfl⟩

theorem remove_found (removed : map.remove start = .ok (region, next)) :
    region ∈ map.regions ∧ region.range.start = start :=
  (remove_eq_ok removed).1

theorem eq_of_start (member : region ∈ map.regions)
    (member' : other ∈ map.regions) (same : region.range.start = other.range.start) :
    region = other := by
  have first := VirtRange.start_inj same
  exact eq_of_mem member member' region.range.first_mem (first ▸ other.range.first_mem)

theorem nodup (map : RangeMap) : map.regions.Nodup :=
  map.sorted.imp fun {earlier later} apart same => by
    have start := later.range.first_lt_stop
    rw [same] at apart
    omega

theorem mem_remove (removed : map.remove start = .ok (region, next)) (held : VmRegion) :
    held ∈ next.regions ↔ held ≠ region ∧ held ∈ map.regions := by
  rw [(remove_eq_ok removed).2]
  exact map.nodup.mem_erase_iff

theorem find_remove (removed : map.remove start = .ok (region, next)) (page : Nat) :
    next.find page = if page ∈ region.range then none else map.find page := by
  have member := (remove_found removed).1
  split
  · next inside =>
      rw [find_eq_none]
      intro held kept covered
      obtain ⟨different, held'⟩ := (mem_remove removed held).mp kept
      exact different (eq_of_mem held' member covered inside)
  next outside =>
  apply find_congr
  intro held inside
  rw [mem_remove removed held]
  constructor
  · exact And.right
  · intro kept
    exact ⟨fun same => outside (same ▸ inside), kept⟩

theorem remove_of_mem (member : region ∈ map.regions) :
    ∃ next, map.remove region.range.start = .ok (region, next) := by
  unfold remove
  cases found : map.regions.find? fun held => held.range.start = region.range.start with
  | none =>
    have missing := List.find?_eq_none.mp found region member
    simp at missing
  | some held =>
    have same := eq_of_start (mem_of_find?_eq_some found) member
      (by simpa using List.find?_some found)
    subst same
    exact ⟨_, rfl⟩

theorem remove_insert (inserted : map.insert region room = .ok next) :
    next.remove region.range.start = .ok (region, map) := by
  have member := (mem_insert inserted region).mpr (.inl rfl)
  obtain ⟨rest, removed⟩ := remove_of_mem member
  have missing : region ∉ map.earlier region.range := by
    intro member
    have passed := mem_takeWhile_imp member
    exact absurd (of_decide_eq_true passed) (Nat.lt_irrefl _)
  have same : rest.regions = map.regions := by
    rw [(remove_eq_ok removed).2, (insert_eq_ok inserted).2.1, erase_append_right _ missing,
      erase_cons_head, map.earlier_append_later]
  rw [removed]
  congr 2
  cases rest
  cases map
  cases same
  rfl

def headOf (whole wanted : VirtRange) : Option VirtRange :=
  if whole.first < wanted.first then fromPages whole.start (wanted.first - whole.first)
  else none

def tailOf (whole wanted : VirtRange) : Option VirtRange :=
  if wanted.stop < whole.stop then
    fromPages (wanted.stop * pageSize) (whole.stop - wanted.stop)
  else none

def insertPiece (map : RangeMap) (region : VmRegion) :
    Option VirtRange → Except RangeMapError RangeMap
  | none => .ok map
  | some piece => map.insert { region with range := piece } true

/-- The vector is grown before anything moves: `room` is only asked for when there is a piece to
add. The map comes back as it stands also when the call fails. -/
def reprotect (map : RangeMap) (start pages : Nat) (protection : Protection) (room : Bool) :
    Except RangeMapError VirtRange × RangeMap :=
  match fromPages start pages with
  | none => (.error .notFound, map)
  | some wanted =>
    match map.find wanted.first with
    | none => (.error .notFound, map)
    | some region =>
      if wanted.first < region.range.first ∨ region.range.stop < wanted.stop then
        (.error .notFound, map)
      else
        let head := headOf region.range wanted
        let tail := tailOf region.range wanted
        if (head.isSome || tail.isSome) && !room then (.error .outOfMemory, map)
        else
          match map.remove region.range.start with
          | .error error => (.error error, map)
          | .ok (_, map) =>
            match map.insert { region with range := wanted, protection } true with
            | .error error => (.error error, map)
            | .ok map =>
              match map.insertPiece region head with
              | .error error => (.error error, map)
              | .ok map =>
                match map.insertPiece region tail with
                | .error error => (.error error, map)
                | .ok map => (.ok wanted, map)

theorem mem_headOf : piece ∈ headOf whole wanted ↔
    piece.first = whole.first ∧ piece.stop = wanted.first := by
  have some := piece.first_lt_stop
  rw [headOf]
  split
  · rw [Option.mem_def, fromPages_eq_some]
    simp only [VirtRange.start, VirtRange.stop, pageSize] at some ⊢
    omega
  · simp only [Option.not_mem_none, false_iff]
    omega

theorem mem_tailOf : piece ∈ tailOf whole wanted ↔
    piece.first = wanted.stop ∧ piece.stop = whole.stop := by
  have some := piece.first_lt_stop
  rw [tailOf]
  split
  · rw [Option.mem_def, fromPages_eq_some]
    simp only [VirtRange.start, VirtRange.stop, pageSize] at *
    omega
  · simp only [Option.not_mem_none, false_iff]
    omega

theorem mem_insertPiece {piece : Option VirtRange}
    (inserted : map.insertPiece region piece = .ok next) (held : VmRegion) : held ∈ next.regions ↔
      (∃ range ∈ piece, held = { region with range }) ∨ held ∈ map.regions := by
  cases piece with
  | none =>
    cases inserted
    simp
  | some range =>
    rw [mem_insert inserted held]
    simp

/-- The part asked for under the new protection, and the rest of the region cut in pieces that
differ in extent only. -/
structure Reprotected (map next : RangeMap) (wanted : VirtRange) (protection : Protection)
    (region : VmRegion) : Prop where
  found : map.find wanted.first = some region
  inside : region.range.first ≤ wanted.first ∧ wanted.stop ≤ region.range.stop
  members : ∀ held, held ∈ next.regions ↔
    (∃ range ∈ tailOf region.range wanted, held = { region with range }) ∨
    (∃ range ∈ headOf region.range wanted, held = { region with range }) ∨
    held = { region with range := wanted, protection } ∨
    held ≠ region ∧ held ∈ map.regions

variable {held : VmRegion} {policy : Policy}

theorem apart_of_removed (removed : map.remove start = .ok (region, next))
    (low : region.range.first ≤ piece.first) (high : piece.stop ≤ region.range.stop)
    (held : VmRegion) (kept : held ∈ next.regions) : held.range.overlaps piece = false := by
  obtain ⟨different, member⟩ := (mem_remove removed held).mp kept
  by_contra overlap
  obtain ⟨page, covered, inside⟩ := overlaps_iff.mp (Bool.eq_true_of_not_eq_false overlap)
  exact different (eq_of_mem member (remove_found removed).1 covered
    ⟨low.trans inside.1, inside.2.trans_le high⟩)

theorem insertPiece_of_apart (region : VmRegion) (piece : Option VirtRange)
    (apart : ∀ range ∈ piece, ∀ held ∈ map.regions, held.range.overlaps range = false) :
    ∃ next, map.insertPiece region piece = .ok next := by
  cases piece with
  | none => exact ⟨map, rfl⟩
  | some range => exact insert_of_apart _ (apart range rfl)

theorem overlaps_eq_false :
    range.overlaps wanted = false ↔ range.stop ≤ wanted.first ∨ wanted.stop ≤ range.first := by
  simp only [overlaps, Bool.and_eq_false_iff, decide_eq_false_iff_not, not_lt, or_comm]

/-- The call is for a part of a region mapped directly, and there is room to cut the region. -/
def Divides (map : RangeMap) (start pages : Nat) (room : Bool) : Prop :=
  room = true ∧ ∃ wanted region physical, fromPages start pages = some wanted ∧
    map.find wanted.first = some region ∧ wanted.stop ≤ region.range.stop ∧
    region.backing = .direct physical ∧ region.range ≠ wanted

theorem cut_of_ne (inside : whole.first ≤ wanted.first ∧ wanted.stop ≤ whole.stop)
    (part : whole ≠ wanted) : (∃ piece, piece ∈ headOf whole wanted) ∨
      ∃ piece, piece ∈ tailOf whole wanted := by
  have nonempty := wanted.first_lt_stop
  simp only [mem_headOf, mem_tailOf]
  rcases inside.1.lt_or_eq with head | first
  · exact .inl (VirtRange.exists_between head nonempty.le)
  rcases inside.2.lt_or_eq with tail | stop
  · exact .inr (VirtRange.exists_between tail le_rfl)
  · refine absurd ?_ part
    obtain ⟨low, pages, _, _⟩ := whole
    obtain ⟨low', pages', _, _⟩ := wanted
    simp only [VirtRange.stop, VirtRange.mk.injEq] at first stop ⊢
    omega

/-- Once its checks have passed nothing fails: the pieces lie where the region lay. -/
theorem reprotect_cases (map : RangeMap) (start pages : Nat) (protection : Protection)
    (room : Bool) :
    (∃ error, map.reprotect start pages protection room = (.error error, map) ∧
      ¬ map.Divides start pages room) ∨
    ∃ wanted next region, fromPages start pages = some wanted ∧
      map.reprotect start pages protection room = (.ok wanted, next) ∧
      Reprotected map next wanted protection region ∧ (region.range ≠ wanted → room = true) := by
  unfold reprotect
  split
  · next missing =>
    refine .inl ⟨_, rfl, fun ⟨_, _, _, _, asked, _⟩ => ?_⟩
    cases missing.symm.trans asked
  next wanted asked =>
  split
  · next missing =>
    refine .inl ⟨_, rfl, fun ⟨_, _, _, _, asked', found, _⟩ => ?_⟩
    cases asked.symm.trans asked'
    cases missing.symm.trans found
  next region found =>
  have starts := (mem_find found).1
  split
  · next outside =>
    refine .inl ⟨_, rfl, fun ⟨_, _, _, _, asked', found', inside, _⟩ => ?_⟩
    cases asked.symm.trans asked'
    cases found.symm.trans found'
    omega
  next inside =>
  simp only
  split
  · next full =>
    refine .inl ⟨_, rfl, fun ⟨roomy, _⟩ => ?_⟩
    simp [roomy] at full
  next roomy =>
  have nonempty := wanted.first_lt_stop
  obtain ⟨rest, removed⟩ := remove_of_mem (find_mem found)
  obtain ⟨middle, insertedMiddle⟩ := insert_of_apart { region with range := wanted, protection }
    (apart_of_removed removed (by simp only; omega) (by simp only; omega))
  obtain ⟨front, insertedHead⟩ := insertPiece_of_apart region (headOf region.range wanted) (by
    intro piece made held kept
    have bounds := mem_headOf.mp made
    rcases (mem_insert insertedMiddle held).mp kept with rfl | kept
    · exact overlaps_eq_false.mpr (by simp only; omega)
    · exact apart_of_removed removed (by omega) (by omega) held kept)
  obtain ⟨back, insertedTail⟩ := insertPiece_of_apart region (tailOf region.range wanted) (by
    intro piece made held kept
    have bounds := mem_tailOf.mp made
    rcases (mem_insertPiece insertedHead held).mp kept with ⟨head, made, rfl⟩ | kept
    · have before := mem_headOf.mp made
      exact overlaps_eq_false.mpr (by simp only; omega)
    rcases (mem_insert insertedMiddle held).mp kept with rfl | kept
    · exact overlaps_eq_false.mpr (by simp only; omega)
    · exact apart_of_removed removed (by omega) (by omega) held kept)
  refine .inr ⟨wanted, back, region, asked, ?_, ⟨found, by omega, fun held => ?_⟩, fun part => ?_⟩
  · simp only [removed, insertedMiddle, insertedHead, insertedTail]
  · rw [mem_insertPiece insertedTail, mem_insertPiece insertedHead,
      mem_insert insertedMiddle, mem_remove removed]
  · have cut := cut_of_ne (by omega) part
    simp only [← Option.isSome_iff_exists, Option.mem_def, ← Bool.or_eq_true] at cut
    simpa [cut] using roomy

section

variable (cut : Reprotected map next wanted protection region)
include cut

theorem Reprotected.within
    (member : held ∈ next.regions) : ∃ whole ∈ map.regions, whole.range.first ≤ held.range.first ∧
      held.range.stop ≤ whole.range.stop ∧ held.backing = whole.backing ∧
      held.flags = whole.flags := by
  have whole := find_mem cut.found
  have inside := cut.inside
  have nonempty := wanted.first_lt_stop
  rcases (cut.members held).mp member with ⟨piece, made, rfl⟩ | ⟨piece, made, rfl⟩ | rfl | other
  · have bounds := mem_tailOf.mp made
    exact ⟨region, whole, by simp only; omega, by simp only; omega, rfl, rfl⟩
  · have bounds := mem_headOf.mp made
    exact ⟨region, whole, by simp only; omega, by simp only; omega, rfl, rfl⟩
  · exact ⟨region, whole, inside.1, inside.2, rfl, rfl⟩
  · exact ⟨held, other.2, le_refl _, le_refl _, rfl, rfl⟩

theorem Reprotected.find (outside : page ∉ region.range) : next.find page = map.find page := by
  apply find_congr
  intro held within
  have nonempty := wanted.first_lt_stop
  have inside := cut.inside
  rw [mem_iff] at outside within
  rw [cut.members held]
  constructor
  · rintro (⟨piece, made, rfl⟩ | ⟨piece, made, rfl⟩ | rfl | other)
    · have bounds := mem_tailOf.mp made
      simp only at within
      omega
    · have bounds := mem_headOf.mp made
      simp only at within
      omega
    · simp only at within
      omega
    · exact other.2
  · intro member
    exact .inr (.inr (.inr ⟨fun same => outside (same ▸ within), member⟩))

theorem Reprotected.policyAt (page : Nat) : next.policyAt page =
      if page ∈ wanted then some { region.toPolicy with protection } else map.policyAt page := by
  have inside := cut.inside
  have nonempty := wanted.first_lt_stop
  split
  · next within =>
      exact policyAt_of_mem ((cut.members _).mpr (.inr (.inr (.inl rfl)))) within
  next outside =>
  by_cases whole : page ∈ region.range
  · rw [policyAt_of_mem (find_mem cut.found) whole]
    rw [mem_iff] at outside whole
    by_cases low : page < wanted.first
    · obtain ⟨piece, bounds⟩ := VirtRange.exists_between (whole.1.trans_lt low) nonempty.le
      have made := (cut.members { region with range := piece }).mpr
        (.inr (.inl ⟨piece, mem_headOf.mpr bounds, rfl⟩))
      exact (policyAt_of_mem made (mem_iff.mpr (by simp only; omega))).trans rfl
    · have after : wanted.stop < region.range.stop := by omega
      obtain ⟨piece, bounds⟩ := VirtRange.exists_between after le_rfl
      have made := (cut.members { region with range := piece }).mpr
        (.inl ⟨piece, mem_tailOf.mpr bounds, rfl⟩)
      exact (policyAt_of_mem made (mem_iff.mpr (by simp only; omega))).trans rfl
  · rw [RangeMap.policyAt, cut.find whole, RangeMap.policyAt]

end

theorem policyAt_insert (inserted : map.insert region room = .ok next) (page : Nat) :
    next.policyAt page =
      if page ∈ region.range then some region.toPolicy else map.policyAt page := by
  rw [policyAt, find_insert inserted, policyAt]
  split <;> rfl

theorem policyAt_of_insert (inserted : map.insert region room = .ok next)
    (inside : page ∈ region.range) : map.policyAt page = none := by
  rw [policyAt, find_of_insert inserted inside, Option.map_none]

theorem policyAt_remove (removed : map.remove start = .ok (region, next)) (page : Nat) :
    next.policyAt page = if page ∈ region.range then none else map.policyAt page := by
  rw [policyAt, find_remove removed, policyAt]
  split <;> rfl

def repolicy (map : RangeMap) (region : VmRegion) (policy : Policy) : RangeMap :=
  ⟨map.regions.map fun held =>
      if held = region then { toPolicy := policy, range := held.range } else held, by
    rw [List.pairwise_map]
    refine map.sorted.imp fun {earlier later} apart => ?_
    split <;> split <;> exact apart⟩

theorem mem_repolicy (member : region ∈ map.regions) (held : VmRegion) :
    held ∈ (map.repolicy region policy).regions ↔
      held = { toPolicy := policy, range := region.range } ∨ held ≠ region ∧
        held ∈ map.regions := by
  simp only [repolicy, mem_map]
  constructor
  · rintro ⟨source, kept, rfl⟩
    split
    · next same => exact .inl (same ▸ rfl)
    · next different => exact .inr ⟨different, kept⟩
  · rintro (rfl | ⟨different, kept⟩)
    · exact ⟨region, member, by rw [if_pos rfl]⟩
    · exact ⟨held, kept, by rw [if_neg different]⟩

theorem policyAt_repolicy (member : region ∈ map.regions) (page : Nat) :
    (map.repolicy region policy).policyAt page =
      if page ∈ region.range then some policy else map.policyAt page := by
  split
  · next inside =>
      have changed := (mem_repolicy member { toPolicy := policy, range := region.range }).mpr
        (.inl rfl)
      exact policyAt_of_mem changed inside
  next outside =>
  rw [policyAt, policyAt]
  congr 1
  apply find_congr
  intro held inside
  rw [mem_repolicy member held]
  constructor
  · rintro (rfl | kept)
    · exact absurd inside outside
    · exact kept.2
  · intro kept
    exact .inr ⟨fun same => outside (same ▸ inside), kept⟩

/-- What a shared region becomes when its object goes and its space keeps it as scratch. -/
def Policy.orphaned (policy : Policy) : Policy :=
  { policy with
    backing := .anonymous
    flags := { policy.flags with copyOnWrite := false, populate := false } }

def orphanShared (map : RangeMap) (start object : Nat) : Except RangeMapError RangeMap :=
  match map.regions.find? fun region => region.range.start = start with
  | none => .error .notFound
  | some region =>
    if region.backing ≠ .shared object then .error .notFound
    else .ok (map.repolicy region (Policy.orphaned region.toPolicy))

theorem orphanShared_spec (turned : map.orphanShared start object = .ok next) :
    ∃ region ∈ map.regions, region.range.start = start ∧ region.backing = .shared object ∧
      next = map.repolicy region (Policy.orphaned region.toPolicy) := by
  unfold orphanShared at turned
  split at turned
  · cases turned
  next region found =>
  split at turned
  · cases turned
  next backed =>
  cases turned
  exact ⟨region, mem_of_find?_eq_some found, by simpa using List.find?_some found,
    not_not.mp backed, rfl⟩

/-- What the search does once no region is in the way any more. -/
def place (high pages candidate : Nat) : Option VirtRange :=
  if pages * pageSize ≤ high - candidate then fromPages candidate pages else none

def sweep (high pages : Nat) : List VmRegion → Nat → Option VirtRange
  | [], candidate => place high pages candidate
  | region :: rest, candidate =>
    let stop := region.range.stop * pageSize
    if stop ≤ candidate then sweep high pages rest candidate
    else if high ≤ region.range.start then place high pages candidate
    else if pages * pageSize ≤ region.range.start - candidate then
      fromPages candidate pages
    else sweep high pages rest (max candidate stop)

def findFree (map : RangeMap) (low high pages : Nat) : Option VirtRange :=
  if pages * pageSize < 2 ^ 64 then sweep high pages map.regions low else none

def Lowest (free : VirtRange → Prop) : Option VirtRange → Prop
  | none => ∀ range, ¬ free range
  | some range => free range ∧ ∀ other, free other → range.first ≤ other.first

/-- A range of so many pages from `low` on and below `high` that none of the regions intersects. -/
structure Free (regions : List VmRegion) (low high pages : Nat) (range : VirtRange) : Prop where
  size : range.pages = pages
  low : low ≤ range.first
  high : range.stop * pageSize ≤ high
  apart : ∀ held ∈ regions, range.stop ≤ held.range.first ∨ held.range.stop ≤ range.first

section

variable {regions : List VmRegion} {low high pages bound : Nat}

theorem lowest_fromPages (fits : pages * pageSize ≤ bound - low * pageSize)
    (clear : ∀ range : VirtRange, range.stop * pageSize ≤ bound → range.stop * pageSize ≤ high ∧
      ∀ held ∈ regions, range.stop ≤ held.range.first ∨ held.range.stop ≤ range.first) :
    Lowest (Free regions low high pages) (fromPages (low * pageSize) pages) := by
  cases found : fromPages (low * pageSize) pages with
  | none =>
    rintro range ⟨rfl, least, _⟩
    have small := Nat.mul_le_mul_right pageSize (Nat.add_le_add_right least range.pages)
    let lowest : VirtRange := ⟨low, range.pages, range.nonempty, small.trans_lt range.fits⟩
    cases found.symm.trans (fromPages_eq_some.mpr ⟨(rfl : lowest.start = _), rfl⟩)
  | some range =>
    obtain ⟨starts, rfl⟩ := fromPages_eq_some.mp found
    obtain rfl := Nat.eq_of_mul_eq_mul_right (by decide) starts
    have some := Nat.mul_pos range.nonempty (show 0 < pageSize by decide)
    have within : range.stop * pageSize ≤ bound := by
      rw [VirtRange.stop, Nat.add_mul]
      exact Nat.add_le_of_le_sub' (Nat.lt_of_sub_pos (some.trans_le fits)).le fits
    obtain ⟨high, apart⟩ := clear range within
    exact ⟨⟨rfl, le_rfl, high, apart⟩, fun _ free => free.low⟩

theorem lowest_place (clear : ∀ range : VirtRange, range.stop * pageSize ≤ high →
      ∀ held ∈ regions, range.stop ≤ held.range.first ∨ held.range.stop ≤ range.first) :
    Lowest (Free regions low high pages) (place high pages (low * pageSize)) := by
  unfold place
  split
  · next fits => exact lowest_fromPages fits fun range within => ⟨within, clear range within⟩
  · next short =>
    intro range ⟨size, least, within, _⟩
    simp only [VirtRange.stop, size, pageSize] at short within
    omega

theorem lowest_sweep (low : Nat)
    (sorted : regions.Pairwise fun earlier later => earlier.range.stop ≤ later.range.first) :
    Lowest (Free regions low high pages) (sweep high pages regions (low * pageSize)) := by
  induction regions generalizing low with
  | nil => exact lowest_place fun _ _ _ => nofun
  | cons region rest induction =>
    obtain ⟨after, sorted⟩ := pairwise_cons.mp sorted
    have beyond : ∀ held ∈ region :: rest, region.range.first ≤ held.range.first :=
      forall_mem_cons.mpr ⟨le_rfl, fun held member =>
        region.range.first_lt_stop.le.trans (after held member)⟩
    -- The region is passed once only ranges from `first` on are free of it.
    have passes {first : Nat} (moves : ∀ range : VirtRange, range.pages = pages →
        (first ≤ range.first ↔ low ≤ range.first ∧
          (range.stop ≤ region.range.first ∨ region.range.stop ≤ range.first))) :
        Lowest (Free (region :: rest) low high pages)
          (sweep high pages rest (first * pageSize)) := by
      have same : Free (region :: rest) low high pages = Free rest first high pages := by
        funext range
        refine propext
          ⟨fun ⟨size, least, within, apart⟩ => ?_, fun ⟨size, least, within, apart⟩ => ?_⟩
        · rw [forall_mem_cons] at apart
          exact ⟨size, (moves range size).mpr ⟨least, apart.1⟩, within, apart.2⟩
        · rw [moves range size] at least
          exact ⟨size, least.1, within, forall_mem_cons.mpr ⟨least.2, apart⟩⟩
      rw [same]
      exact induction first sorted
    unfold sweep
    simp only
    split
    · next passed =>
      refine passes fun range _ => ?_
      have := Nat.le_of_mul_le_mul_right passed (by decide)
      omega
    next reached =>
    split
    · next past =>
      refine lowest_place fun range within held member => .inl ?_
      have := Nat.le_of_mul_le_mul_right (within.trans past) (by decide)
      exact this.trans (beyond held member)
    next before =>
    split
    · next fits =>
      refine lowest_fromPages fits fun range within => ⟨within.trans (Nat.le_of_not_le before), ?_⟩
      have := Nat.le_of_mul_le_mul_right within (by decide)
      exact fun held member => .inl (this.trans (beyond held member))
    · next narrow =>
      rw [max_eq_right (Nat.le_of_not_le reached)]
      refine passes fun range size => ?_
      simp only [VirtRange.stop, VirtRange.start, pageSize] at reached narrow ⊢
      omega

end

theorem lowest_findFree (map : RangeMap) (low high pages : Nat) :
    Lowest (Free map.regions low high pages) (map.findFree (low * pageSize) high pages) := by
  unfold findFree
  split
  · exact lowest_sweep low map.sorted
  · rintro range ⟨rfl, _⟩
    have fits := range.fits
    rw [Nat.add_mul] at fits
    omega

/-- The map finds the region over a page, refuses what would overlap, and finds the lowest room. -/
theorem interval_map (map : RangeMap) :
    map.regions.Pairwise (fun earlier later => earlier.range.stop ≤ later.range.first) ∧
    (∀ region ∈ map.regions, region.range.first < region.range.stop) ∧
    (∀ page region, map.find page = some region ↔ region ∈ map.regions ∧ page ∈ region.range) ∧
    (∀ region room, (∃ index, map.insert region room = .error (.overlaps index)) ↔
      ∃ held ∈ map.regions, ∃ page, page ∈ held.range ∧ page ∈ region.range) ∧
    (∀ region, (¬ ∃ held ∈ map.regions, ∃ page, page ∈ held.range ∧ page ∈ region.range) →
      map.insert region false = .error .outOfMemory ∧ ∃ next, map.insert region true = .ok next ∧
        ∀ held, held ∈ next.regions ↔ held = region ∨ held ∈ map.regions) ∧
    ∀ low high pages, Lowest (Free map.regions low high pages)
      (map.findFree (low * pageSize) high pages) := by
  simp only [← overlaps_iff]
  refine ⟨map.sorted, fun region _ => region.range.first_lt_stop, fun _ _ => find_eq_some,
    fun region room => ?_, fun region alone => ?_, map.lowest_findFree⟩
  · rcases map.insert_cases region room with ⟨index, refused, meets⟩ | ⟨apart, next, _, done⟩
    · exact iff_of_true ⟨index, refused⟩ meets
    refine iff_of_false (fun ⟨index, refused⟩ => ?_) fun ⟨held, member, meets⟩ => ?_
    · rw [done] at refused
      split at refused <;> cases refused
    · cases (apart held member).symm.trans meets
  · have placed (room : Bool) := (map.insert_cases region room).resolve_left
      fun ⟨_, _, meets⟩ => alone meets
    obtain ⟨_, _, _, refused⟩ := placed false
    obtain ⟨_, next, _, done⟩ := placed true
    exact ⟨refused, next, done, mem_insert done⟩

def resolve (map : RangeMap) (address : Nat) : Option Backing :=
  (map.find (address / pageSize)).map fun region => region.backing.at (address - region.range.start)

theorem resolve_of_mem (member : region ∈ map.regions)
    (inside : address / pageSize ∈ region.range) :
    map.resolve address = some (region.backing.at (address - region.range.start)) := by
  rw [resolve, find_eq_some.mpr ⟨member, inside⟩, Option.map_some]

theorem resolve_of_backing
    (found : (map.policyAt (address / pageSize)).map (·.backing) = some backing)
    (indirect : ∀ physical, backing ≠ .direct physical) : map.resolve address = some backing := by
  rw [policyAt, Option.map_map] at found
  obtain ⟨region, covering, rfl⟩ := Option.map_eq_some_iff.mp found
  rw [resolve, covering, Option.map_some, Backing.at]
  · rfl
  · exact indirect

section

variable (cut : Reprotected map next wanted protection region)
include cut

theorem Reprotected.policyAt_of_wanted
    (within : page ∈ wanted) : map.policyAt page = some region.toPolicy :=
  policyAt_of_mem (find_mem cut.found)
    ⟨cut.inside.1.trans within.1, within.2.trans_le cut.inside.2⟩

theorem Reprotected.map_policyAt
    {part : Policy → α} (blind : ∀ policy protection, part { policy with protection } = part policy)
    (page : Nat) : (next.policyAt page).map part = (map.policyAt page).map part := by
  rw [cut.policyAt]
  split
  · next within =>
      rw [cut.policyAt_of_wanted within]
      exact congrArg some (blind ..)
  · rfl

theorem Reprotected.resolve
    (placed : (∀ physical, region.backing ≠ .direct physical) ∨ region.range = wanted)
    (address : Nat) : next.resolve address = map.resolve address := by
  by_cases whole : address / pageSize ∈ region.range
  · have member := find_mem cut.found
    rcases placed with indirect | rfl
    · have before := congrArg (Option.map (·.backing)) (policyAt_of_mem member whole)
      rw [resolve_of_backing before indirect]
      exact resolve_of_backing ((cut.map_policyAt (fun _ _ => rfl) _).trans before) indirect
    · have made := (cut.members { region with protection }).mpr (.inr (.inr (.inl rfl)))
      rw [resolve_of_mem member whole, resolve_of_mem made whole]
  · rw [RangeMap.resolve, cut.find whole, RangeMap.resolve]

/-- A piece that starts further on than the region did resolves its own start to the region's
first frame. -/
theorem Reprotected.resolve_ne (direct : region.backing = .direct physical)
    (piece : { region with range, protection := shown } ∈ next.regions)
    (low : region.range.first < range.first) (high : range.stop ≤ region.range.stop) :
    next.resolve range.start ≠ map.resolve range.start := by
  have page : range.start / pageSize = range.first := Nat.mul_div_cancel _ (by decide)
  have nonempty := range.first_lt_stop
  rw [resolve_of_mem piece (page ▸ range.first_mem),
    resolve_of_mem (find_mem cut.found) (by rw [page, mem_iff]; omega), direct]
  simp only [Backing.at, VirtRange.start, pageSize, ne_eq, Option.some.injEq, Backing.direct.injEq]
  omega

theorem Reprotected.resolve_iff : (∀ address, next.resolve address = map.resolve address) ↔
    (∀ physical, region.backing ≠ .direct physical) ∨ region.range = wanted := by
  refine ⟨fun kept => ?_, cut.resolve⟩
  by_contra divided
  obtain ⟨⟨physical, direct⟩, part⟩ := not_or.mp divided |>.imp_left (by simpa using ·)
  have inside := cut.inside
  have nonempty := wanted.first_lt_stop
  by_cases head : region.range.first < wanted.first
  · exact cut.resolve_ne direct ((cut.members _).mpr (.inr (.inr (.inl rfl)))) head inside.2
      (kept _)
  rcases cut_of_ne inside part with ⟨piece, made⟩ | ⟨piece, made⟩
  · have bounds := mem_headOf.mp made
    have := piece.first_lt_stop
    omega
  · have bounds := mem_tailOf.mp made
    exact cut.resolve_ne direct ((cut.members _).mpr (.inl ⟨piece, made, rfl⟩)) (by omega)
      bounds.2.le (kept _)

end

/-- Only the protection changes and only where asked; a refused call changes nothing. -/
def Framed (map : RangeMap) (start pages : Nat) (protection : Protection) :
    Except RangeMapError VirtRange × RangeMap → Prop
  | (.error _, next) => next = map
  | (.ok wanted, next) => fromPages start pages = some wanted ∧ ∀ address,
      let page := address / pageSize
      next.resolve address = map.resolve address ∧
      (next.policyAt page).map (·.flags) = (map.policyAt page).map (·.flags) ∧
      (next.policyAt page).map (·.protection) =
        if page ∈ wanted then some protection else (map.policyAt page).map (·.protection)

/-- A call is framed unless it divides a region mapped directly: every piece keeps the physical
address that the region's own start had. -/
theorem reprotect_frame (map : RangeMap) (start pages : Nat) (protection : Protection)
    (room : Bool) :
    map.Framed start pages protection (map.reprotect start pages protection room) ↔
      ¬ map.Divides start pages room := by
  rcases map.reprotect_cases start pages protection room with
    ⟨error, refused, whole⟩ | ⟨wanted, next, region, asked, done, cut, roomy⟩
  · rw [refused]
    exact iff_of_true rfl whole
  rw [done]
  have kept (address : Nat) : (next.policyAt (address / pageSize)).map (·.flags) =
      (map.policyAt (address / pageSize)).map (·.flags) ∧
      (next.policyAt (address / pageSize)).map (·.protection) =
        if address / pageSize ∈ wanted then some protection
        else (map.policyAt (address / pageSize)).map (·.protection) := by
    refine ⟨cut.map_policyAt (fun _ _ => rfl) _, ?_⟩
    rw [cut.policyAt]
    split <;> rfl
  simp only [Framed, asked, true_and, kept, and_self, and_true]
  rw [cut.resolve_iff]
  constructor
  · rintro placed ⟨_, _, _, physical, asked', found, _, direct, part⟩
    cases asked.symm.trans asked'
    cases cut.found.symm.trans found
    exact placed.elim (fun indirect => indirect physical direct) part
  · intro whole
    by_contra divided
    obtain ⟨⟨physical, direct⟩, part⟩ := not_or.mp divided |>.imp_left (by simpa using ·)
    exact whole ⟨roomy part, wanted, region, physical, asked, cut.found, cut.inside.2, direct, part⟩

theorem reprotect_moves_direct :
    let map : RangeMap := ⟨[.new ⟨1, 2, by decide, by decide⟩ .readWrite (.direct 0)],
      List.pairwise_singleton ..⟩
    let (answer, next) := map.reprotect (2 * pageSize) 1 .readOnly true
    answer.toOption = fromPages (2 * pageSize) 1 ∧
      map.resolve (2 * pageSize) = some (.direct pageSize) ∧
      next.resolve (2 * pageSize) = some (.direct 0) := by
  decide

end RangeMap

end Bhaskix.Mm
