import Mathlib.Algebra.Order.Ring.Int
import Mathlib.Data.Nat.Basic
import Mathlib.Logic.ExistsUnique
import Saps.Classifier.Loops
import Saps.Library.SignedDigits

/-!
# Per-flow path stability

Whether the ECMP branch sends packets of one flow the same way. The key of the
hash has a TTL field that most packets leave as the memory holds it, so they
wander whenever there is a choice.
-/
namespace Saps.Classifier

open MultiPathForwarder SignedDigits

variable {T τ : Type} (table : SlotTable T τ) (mshift : BitVec 32 → BitVec 32)

/-- The packets that the ECMP branch of `classify()` handles. -/
def ByEcmp (c : MultiPathForwarder) (p : Packet) : Prop :=
  c.packetSpraying = 0 ∧ c.flowcellSpraying = 0 ∧ (c.perflow ≠ 0 ∨ p.isElephant = 0)

/-- Whether the TTL is meant to be in the key. -/
def KeyedByTtl (c : MultiPathForwarder) (ptype : PacketType) : Prop :=
  c.perflow = 2 ∧ ptype = .tcp

instance (c : MultiPathForwarder) (ptype : PacketType) : Decidable (KeyedByTtl c ptype) :=
  inferInstanceAs (Decidable (_ ∧ _))

/-- Two packets with the same values in the fields that the key is meant to contain. -/
structure SameFlow (c : MultiPathForwarder) (p q : Packet) : Prop where
  src : mshift p.src = mshift q.src
  dst : mshift p.dst = mshift q.dst
  sport : p.sport = q.sport
  dport : p.dport = q.dport
  flowid : p.flowid = q.flowid
  ptype : p.ptype = q.ptype
  ttl : KeyedByTtl c p.ptype → p.ttl = q.ttl

/-- Packets of this type and of one flow take one slot, whatever the memory held. -/
def PathStable (c : MultiPathForwarder) (ptype : PacketType) (t : T) : Prop :=
  ∀ p q, p.ptype = ptype → ByEcmp c p → ByEcmp c q → SameFlow mshift c p q →
    ∀ held held', (c.classify table mshift t held p).map Answer.cl =
      (c.classify table mshift t held' q).map Answer.cl

/-! ### The slot of a hash -/

/-- The slot in use found from the hash on. -/
def slotOf (t : T) (hash : Nat) : Option Int :=
  if paths table t = 0 then none else nextInUse table t (hash % paths table t : Nat)

variable {table mshift} {c : MultiPathForwarder} {t : T}

theorem classify_cl {p : Packet} (byEcmp : ByEcmp c p) (plain : c.K = 0 ∨ c.perflow ≠ 0)
    (held : Locals) : (c.classify table mshift t held p).map Answer.cl =
      slotOf table t (hashString (c.key mshift held p).bytes).toNat := by
  obtain ⟨packets, flowcells, branch⟩ := byEcmp
  have other : ¬ (c.perflow = 0 ∧ c.K ≠ 0) := by tauto
  rw [classify, if_neg (not_not.mpr packets), if_neg (not_not.mpr flowcells),
    if_pos (branch.imp_right fun mouse => ⟨packets, mouse⟩), ecmp, slotOf]
  simp only [if_neg other]
  split_ifs
  · rfl
  · rw [Option.map_map]
    exact congrFun Option.map_id _

theorem key_eq {p q : Packet} (same : SameFlow mshift c p q) (keyed : KeyedByTtl c p.ptype)
    (held held' : Locals) : c.key mshift held p = c.key mshift held' q := by
  have first : c.perflow = 2 ∧ p.ptype = .tcp := keyed
  have second : c.perflow = 2 ∧ q.ptype = .tcp := ⟨keyed.1, same.ptype ▸ keyed.2⟩
  rw [key, key, if_pos first, if_pos second, same.src, same.dst, same.sport, same.dport,
    same.flowid, same.ttl keyed]

/-- A slot in use is the one taken for the hash of its number. -/
theorem slotOf_self {i : Nat} (used : table.slot t i ≠ none) : slotOf table t i = some (i : Int) := by
  have inside := lt_paths used
  rw [slotOf, if_neg (by omega), Nat.mod_eq_of_lt inside, nextInUse_self used]

/-- As long as a slot is in use, every hash leads to one. -/
theorem exists_slotOf (some : ∃ i, table.slot t i ≠ none) (hash : Nat) :
    ∃ i : Nat, table.slot t i ≠ none ∧ slotOf table t hash = Option.some (i : Int) := by
  have inside := Nat.mod_lt hash (paths_pos some)
  obtain ⟨r, first⟩ := exists_firstUsed some inside
  refine ⟨r, usedAt_iff.mp first.marked, ?_⟩
  rw [slotOf, if_neg (paths_pos some).ne', nextInUse_first inside first]

/-- Between two slots in use there is a hash from which one step leads elsewhere. -/
theorem exists_turn {a b : Nat} (first : table.slot t a ≠ none) (second : table.slot t b ≠ none)
    (order : a < b) : ∃ hash, hash + 1 < paths table t ∧
      slotOf table t hash ≠ slotOf table t (hash + 1) := by
  by_contra none
  have constant : ∀ i, a ≤ i → i ≤ b → slotOf table t i = slotOf table t a := by
    intro i from_ upto
    induction i, from_ using Nat.le_induction with
    | base => rfl
    | succ i after ih =>
      rw [← ih (by omega)]
      by_contra differs
      exact none ⟨i, lt_of_le_of_lt upto (lt_paths second), fun same => differs same.symm⟩
  have same := constant b order.le (le_refl b)
  rw [slotOf_self first, slotOf_self second] at same
  cases same
  exact absurd order (lt_irrefl _)

/-! ### Reaching a hash -/

theorem bytes_eq (a b c d : BitVec 8) : bytes (BitVec.ofNat 32
    (a.toNat + 2 ^ 8 * b.toNat + 2 ^ 16 * c.toNat + 2 ^ 24 * d.toNat)) = [a, b, c, d] := by
  simp only [bytes, List.cons.injEq, and_true]
  refine ⟨?_, ?_, ?_, ?_⟩
  all_goals
    apply BitVec.eq_of_toNat_eq
    simp [BitVec.extractLsb'_toNat, Nat.shiftRight_eq_div_pow]
    omega

theorem toInt_ofInt {digit : Int} (low : -128 ≤ digit) (high : digit ≤ 127) :
    (BitVec.ofInt 8 digit).toInt = digit := by
  rw [BitVec.toInt_ofInt]
  apply Int.bmod_eq_of_le
  · omega
  · omega

/-- Four digits that fit into a `char` each are the bytes of an `int`. -/
theorem exists_word {digits : List Int} (length : digits.length = 4)
    (within : Within (-128) 127 digits) : ∃ x, (bytes x).map BitVec.toInt = digits := by
  match digits, length with
  | [a, b, c, d], _ =>
    refine ⟨_, (congrArg (List.map BitVec.toInt)
      (bytes_eq (.ofInt 8 a) (.ofInt 8 b) (.ofInt 8 c) (.ofInt 8 d))).trans ?_⟩
    have fits : ∀ digit ∈ [a, b, c, d], (BitVec.ofInt 8 digit).toInt = digit := fun digit inside =>
      toInt_ofInt (within digit inside).1 (within digit inside).2
    rw [List.map_cons, List.map_cons, List.map_cons, List.map_cons, fits a (by simp),
      fits b (by simp), fits c (by simp), fits d (by simp)]
    rfl

theorem hash_step (value : Int) (byte : BitVec 8) :
    BitVec.ofInt 32 value + ((BitVec.ofInt 32 value <<< 3) + byte.signExtend 32) =
      BitVec.ofInt 32 (9 * value + byte.toInt) := by
  have eight : BitVec.twoPow 32 3 = BitVec.ofInt 32 8 := by decide
  rw [BitVec.signExtend, BitVec.shiftLeft_eq_mul_twoPow, eight, ← BitVec.ofInt_mul,
    ← BitVec.ofInt_add, ← BitVec.ofInt_add]
  congr 1
  ring

/-- The hash is the value of the bytes as signed digits to base 9, modulo `2 ^ 32`. -/
theorem hashString_eq (bytes : List (BitVec 8)) :
    hashString bytes = BitVec.ofInt 32 (valueFrom 9 0 (bytes.map BitVec.toInt)) := by
  induction bytes using List.reverseRecOn with
  | nil => rfl
  | append_singleton bytes byte ih =>
    rw [hashString, List.foldl_append, ← hashString, ih, List.map_append, valueFrom_append]
    exact hash_step _ byte

/-- The hash of a key whose source port is 0 and whose destination port has only a last byte. -/
theorem hash_key {dport src dst fid ttl : BitVec 32} {c : Int}
    (port : (bytes dport).map BitVec.toInt = [0, 0, 0, c]) :
    hashString (Hkey.bytes ⟨0, dport, src, dst, fid, ttl⟩) = BitVec.ofInt 32
      (9 ^ 16 * c + 9 ^ 8 * valueFrom 9 0 ((bytes src ++ bytes dst).map BitVec.toInt) +
        valueFrom 9 0 ((bytes fid ++ bytes ttl).map BitVec.toInt)) := by
  have zeros : (bytes 0).map BitVec.toInt = [0, 0, 0, 0] := by decide
  have split : (Hkey.bytes ⟨0, dport, src, dst, fid, ttl⟩).map BitVec.toInt =
      ([0, 0, 0, 0] ++ [0, 0, 0, c]) ++ (bytes src ++ bytes dst).map BitVec.toInt ++
        (bytes fid ++ bytes ttl).map BitVec.toInt := by
    simp only [Hkey.bytes, List.flatMap_cons, List.flatMap_nil, List.append_nil, List.map_append,
      zeros, port, List.append_assoc]
  have ports : valueFrom 9 0 ([0, 0, 0, 0] ++ [0, 0, 0, c]) = c := by simp [valueFrom]
  have addresses : ((bytes src ++ bytes dst).map BitVec.toInt).length = 8 := rfl
  have rest : ((bytes fid ++ bytes ttl).map BitVec.toInt).length = 8 := rfl
  rw [hashString_eq, split, valueFrom_append, valueFrom_append, ports, valueFrom_eq, rest,
    @valueFrom_eq _ c, addresses]
  congr 1
  ring

/-- Whatever the addresses, every pair of neighbouring hashes is reached by two keys that differ
in the TTL only. -/
theorem exists_hash {hash : Nat} (src dst : BitVec 32) (fits : hash + 1 < 2 ^ 32) :
    ∃ dport fid ttl ttl' : BitVec 32,
      (hashString (Hkey.bytes ⟨0, dport, src, dst, fid, ttl⟩)).toNat = hash ∧
      (hashString (Hkey.bytes ⟨0, dport, src, dst, fid, ttl'⟩)).toNat = hash + 1 := by
  generalize addresses : valueFrom 9 0 ((bytes src ++ bytes dst).map BitVec.toInt) = m
  -- the last byte of the port jumps in steps of -37 to a stretch that the eight digits cover
  obtain ⟨t, nonneg, below, wraps, target⟩ : ∃ t : Int, 0 ≤ t ∧ t < 2 ^ 32 ∧ ∃ wraps,
      (hash : Int) = 9 ^ 8 * m - 688747520 + t + 2 ^ 32 * wraps :=
    ⟨(hash - 9 ^ 8 * m + 688747520) % 2 ^ 32, Int.emod_nonneg _ (by decide),
      Int.emod_lt_of_pos _ (by decide), (hash - 9 ^ 8 * m + 688747520) / 2 ^ 32, by omega⟩
  have eight : ones 9 8 = 5380840 := by decide
  obtain ⟨digits, digit, length, within, low, high, value, next⟩ :=
    @exists_neighbours 9 (-128) 127 (by decide) (by decide) 7 (t % 1369503579 - 688747520)
      (by rw [eight]; omega) (by rw [eight]; omega)
  obtain ⟨dport, port⟩ := @exists_word [0, 0, 0, -37 * (t / 1369503579)] rfl (by
    intro digit inside
    simp only [List.mem_cons, List.not_mem_nil, or_false] at inside
    omega)
  obtain ⟨fid, flow⟩ := @exists_word (digits.take 4) (by rw [List.length_take]; omega)
    fun digit inside => within digit (List.mem_of_mem_take inside)
  have last : ∀ d, -128 ≤ d → d ≤ 127 → ∃ ttl, (bytes ttl).map BitVec.toInt = digits.drop 4 ++ [d] :=
    fun d low high => exists_word (by simp [length])
      (within_append_singleton.mpr
        ⟨fun digit inside => within digit (List.mem_of_mem_drop inside), low, high⟩)
  obtain ⟨ttl, time⟩ := last digit low high.le
  obtain ⟨ttl', time'⟩ := last (digit + 1) (by omega) high
  refine ⟨dport, fid, ttl, ttl', ?_, ?_⟩
  · rw [hash_key port, addresses, List.map_append, flow, time, ← List.append_assoc,
      List.take_append_drop, value, BitVec.toNat_ofInt]
    omega
  · rw [hash_key port, addresses, List.map_append, flow, time', ← List.append_assoc,
      List.take_append_drop, next, BitVec.toNat_ofInt]
    omega

/-! ### Stability -/

theorem stable_of_keyed {ptype : PacketType} (keyed : KeyedByTtl c ptype)
    (plain : c.K = 0 ∨ c.perflow ≠ 0) : PathStable table mshift c ptype t := by
  rintro p q rfl byEcmp byEcmp' same held held'
  rw [classify_cl byEcmp plain, classify_cl byEcmp' plain, key_eq same keyed held held']

theorem stable_of_unique {ptype : PacketType} (unique : ∃! i, table.slot t i ≠ none)
    (plain : c.K = 0 ∨ c.perflow ≠ 0) : PathStable table mshift c ptype t := by
  intro p q _ byEcmp byEcmp' _ held held'
  obtain ⟨i, found, first⟩ :=
    exists_slotOf unique.exists (hashString (c.key mshift held p).bytes).toNat
  obtain ⟨j, found', second⟩ :=
    exists_slotOf unique.exists (hashString (c.key mshift held' q).bytes).toNat
  rw [classify_cl byEcmp plain, classify_cl byEcmp' plain, first, second,
    unique.unique found found']

/-- With a choice of slots and no TTL in the key, some packet takes either of two slots. -/
theorem unstable {ptype : PacketType} (unkeyed : ¬ KeyedByTtl c ptype)
    (plain : c.K = 0 ∨ c.perflow ≠ 0) (packets : c.packetSpraying = 0)
    (flowcells : c.flowcellSpraying = 0) (int : table.maxslot t < 2 ^ 31 - 1) {a b : Nat}
    (first : table.slot t a ≠ none) (second : table.slot t b ≠ none) (order : a < b) :
    ¬ PathStable table mshift c ptype t := by
  intro stable
  obtain ⟨hash, inside, differ⟩ := exists_turn first second order
  have fits : hash + 1 < 2 ^ 32 := by
    rw [paths] at inside
    omega
  obtain ⟨dport, fid, ttl, ttl', here, there⟩ := exists_hash (mshift 0) (mshift 0) fits
  -- one packet, and two values that the memory of the unset TTL may hold
  let p : Packet := { (default : Packet) with dport, flowid := fid, ptype }
  have byEcmp : ByEcmp c p := ⟨packets, flowcells, .inr rfl⟩
  have unset : ¬ (c.perflow = 2 ∧ p.ptype = .tcp) := unkeyed
  have key : ∀ held : Locals, c.key mshift held p = ⟨0, dport, mshift 0, mshift 0, fid, held.ttl⟩ :=
    fun held => by
      rw [MultiPathForwarder.key, if_neg unset]
      rfl
  have same : SameFlow mshift c p p := ⟨rfl, rfl, rfl, rfl, rfl, rfl, fun _ => rfl⟩
  have equal := stable p p rfl byEcmp byEcmp same ⟨0, ttl⟩ ⟨0, ttl'⟩
  rw [classify_cl byEcmp plain, classify_cl byEcmp plain, key, key, here, there] at equal
  exact differ equal

/-- Packets of a flow keep to one slot exactly if the TTL belongs to their key, or if only one slot
is in use. `maxslot_ + 1` is an `int`. -/
theorem pathStable_iff (c : MultiPathForwarder) (ptype : PacketType) (t : T)
    (some : ∃ i, table.slot t i ≠ none) (int : table.maxslot t < 2 ^ 31 - 1)
    (plain : c.K = 0 ∨ c.perflow ≠ 0) (packets : c.packetSpraying = 0)
    (flowcells : c.flowcellSpraying = 0) :
    PathStable table mshift c ptype t ↔
      KeyedByTtl c ptype ∨ ∃! i, table.slot t i ≠ none := by
  constructor
  · intro stable
    by_contra neither
    obtain ⟨unkeyed, several⟩ := not_or.mp neither
    obtain ⟨a, first⟩ := some
    obtain ⟨b, second, other⟩ : ∃ b, table.slot t b ≠ none ∧ b ≠ a := by
      by_contra none
      exact several ⟨a, first, fun b used => by_contra fun other => none ⟨b, used, other⟩⟩
    -- two slots in use, in either order, give two packets of a flow that part
    rcases lt_or_gt_of_ne other with below | above
    · exact unstable unkeyed plain packets flowcells int second first below stable
    · exact unstable unkeyed plain packets flowcells int first second above stable
  · rintro (keyed | unique)
    · exact stable_of_keyed keyed plain
    · exact stable_of_unique unique plain

/-! ### Two links -/

/-- With ECMP over two links, what the memory held decides between them for a packet of zeros. -/
theorem ecmp_wanders : ¬ PathStable (slotList Nat) id { perflow := 1 } .tcp (installed [7, 8]) := by
  intro stable
  have byEcmp : ByEcmp { perflow := 1 } default := ⟨rfl, rfl, .inl (by decide)⟩
  have equal := stable default default rfl byEcmp byEcmp ⟨rfl, rfl, rfl, rfl, rfl, rfl, fun _ => rfl⟩
    ⟨0, 0⟩ ⟨0, 0x01000000⟩
  revert equal
  decide

/-- FlowBender keeps the packets of a flow together. -/
theorem flowBender_stable : PathStable (slotList Nat) id { perflow := 2 } .tcp (installed [7, 8]) :=
  (pathStable_iff { perflow := 2 } .tcp (installed [7, 8]) ⟨0, by decide⟩ (by decide)
    (.inr (by decide)) rfl rfl).mpr (.inl (by decide))

end Saps.Classifier
