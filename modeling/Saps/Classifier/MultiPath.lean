import Mathlib.Algebra.Group.Int.Defs
import Mathlib.Data.List.Basic
import Mathlib.Tactic.ByContra
import Mathlib.Tactic.SplitIfs
import Saps.Library.CyclicSearch

/-!
# The multipath classifier

`MultiPathForwarder::classify()`. The base class `Classifier`, with the slots
and the shift of addresses, is a parameter. What the memory of the call's locals
held before the call is an argument: not every local is set on every path.
-/
namespace Saps.Classifier

/-- What the code relies on of the slots of a `Classifier`: the next target goes behind the last
slot in use, and an empty slot behind it is never the last one. -/
structure SlotTable (T τ : Type) where
  slot : T → Nat → Option τ
  maxslot : T → Int
  nslot : T → Nat
  create : T
  installNext : T → τ → T
  clear : T → Nat → T
  /-- The slots in use and what they hold, in no particular order. -/
  adjacents : T → List (Nat × τ)
  neg_one_le_maxslot : ∀ t, -1 ≤ maxslot t
  maxslot_lt_nslot : ∀ t, maxslot t < nslot t
  le_maxslot : ∀ t i, slot t i ≠ none → i ≤ maxslot t
  slot_maxslot : ∀ t, 0 ≤ maxslot t → slot t (maxslot t).toNat ≠ none
  slot_create : ∀ i, slot create i = none
  slot_installNext : ∀ t target i,
    slot (installNext t target) i = if i = maxslot t + 1 then some target else slot t i
  slot_clear : ∀ t i j, slot (clear t i) j = if j = i then none else slot t j
  mem_adjacents : ∀ t i target, (i, target) ∈ adjacents t ↔ slot t i = some target

inductive PacketType where
  | tcp
  | other (code : Nat)
deriving DecidableEq, Inhabited, Repr

/-- What `classify()` reads of the headers of a packet. -/
structure Packet where
  src : BitVec 32
  dst : BitVec 32
  sport : BitVec 32
  dport : BitVec 32
  flowid : BitVec 32
  ttl : BitVec 32
  ptype : PacketType
  isElephant : Int
  failureDetected : Int
  visitedToR : Int
  aggDecision : Int
  linkID : Int
deriving DecidableEq, Inhabited, Repr

structure MultiPathForwarder where
  ns : Int := 0
  perflow : Int := 0
  packetSpraying : Int := 0
  flowcellSpraying : Int := 0
  selectiveSpraying : Int := 0
  K : Int := 0
  failureCase : Int := 0

/-- What the memory of `cl` and of `buf_.ttl` holds when a call begins. -/
structure Locals where
  cl : Int
  ttl : BitVec 32

/-! ### The hash -/

/-- The bytes of an `int` in memory, the least significant one first. -/
def bytes (x : BitVec 32) : List (BitVec 8) :=
  [x.extractLsb' 0 8, x.extractLsb' 8 8, x.extractLsb' 16 8, x.extractLsb' 24 8]

/-- `HashString(bytes, length)`; a `char` is signed. -/
def hashString (bytes : List (BitVec 8)) : BitVec 32 :=
  bytes.foldl (fun result byte => result + ((result <<< 3) + byte.signExtend 32)) 0

structure Hkey where
  sport : BitVec 32
  dport : BitVec 32
  src : BitVec 32
  dst : BitVec 32
  fid : BitVec 32
  ttl : BitVec 32

def Hkey.bytes (buf : Hkey) : List (BitVec 8) :=
  [buf.sport, buf.dport, buf.src, buf.dst, buf.fid, buf.ttl].flatMap Classifier.bytes

/-- An `int` taken for an `unsigned int`. -/
def unsigned (x : Int) : Nat := (x % 2 ^ 32).toNat

namespace MultiPathForwarder

variable {T τ : Type} (table : SlotTable T τ) (mshift : BitVec 32 → BitVec 32)

/-- What a call answers: the slot, and what it leaves of the classifier and of the packet. -/
structure Answer where
  cl : Int
  c : MultiPathForwarder
  p : Packet

/-- The slots that a packet may be sent to are `0` to `paths - 1`. -/
def paths (t : T) : Nat := (table.maxslot t + 1).toNat

/-- Whether a slot is in use; no answer for a slot that is not there. -/
def inUse (t : T) (i : Int) : Option Bool :=
  if 0 ≤ i ∧ i < table.nslot t then some (table.slot t i.toNat).isSome else none

/-- `ns_++` and `ns_ %= (maxslot_ + 1)`. -/
def advance (t : T) (ns : Int) : Option Int :=
  if paths table t = 0 then none else some ((ns + 1).tmod (paths table t))

/-- The loops that stop at a slot in use or at `fail`; more turns mean that they never end. -/
def spin (t : T) (fail : Int) : Nat → Int → Int → Option (Int × Int)
  | 0, _, _ => none
  | turns + 1, cl, ns => do
    if !(← inUse table t cl) && ns != fail then
      let after ← advance table t ns
      spin t fail turns ns after
    else some (cl, ns)

/-- The loops that stop at a slot in use only. -/
def nextInUse (t : T) (cl : Int) : Option Int :=
  if 0 ≤ cl ∧ cl < table.nslot t then
    (CyclicSearch.search (paths table t) (fun i => (table.slot t i).isSome) (paths table t + 1)
      cl.toNat).map fun i => (i : Int)
  else none

variable (c : MultiPathForwarder)

def key (locals : Locals) (p : Packet) : Hkey where
  sport := p.sport
  dport := p.dport
  src := mshift p.src
  dst := mshift p.dst
  fid := p.flowid
  -- FlowBender includes the TTL; otherwise this field is not set
  ttl := if c.perflow = 2 ∧ p.ptype = .tcp then p.ttl else locals.ttl

/-- The ECMP branch. -/
def ecmp (t : T) (locals : Locals) (p : Packet) : Option Answer :=
  let n := paths table t
  let ms := (hashString (c.key mshift locals p).bytes).toNat
  if c.perflow = 0 ∧ c.K ≠ 0 then
    if p.visitedToR = 1 then
      (nextInUse table t (unsigned p.aggDecision)).map fun cl =>
        { cl, c, p := { p with visitedToR := 0 } }
    else if n = 0 then none
    else
      let ms := ms % unsigned c.K
      let aggDecision : Int := (ms / n : Nat)
      (nextInUse table t (ms % n : Nat)).map fun cl =>
        { cl, c, p := { p with aggDecision, visitedToR := 1 } }
  else if n = 0 then none
  else (nextInUse table t (ms % n : Nat)).map fun cl => { cl, c, p }

/-- The flowcell spraying branch. -/
def flowcell (t : T) (p : Packet) : Option Answer :=
  if c.failureCase = 2 then
    (spin table t p.linkID (paths table t + 2) p.linkID (p.linkID + 1)).map fun (cl, ns) =>
      { cl, c := { c with ns }, p }
  else
    (nextInUse table t p.linkID).map fun cl => { cl, c := { c with ns := p.linkID }, p }

/-- The packet spraying branch. -/
def spray (t : T) (p : Packet) : Option Answer :=
  if c.selectiveSpraying ≠ 0 ∧ p.failureDetected ≠ 0 then
    let fail := if p.linkID - 1 < 0 then p.linkID - 1 + paths table t else p.linkID - 1
    (spin table t fail (paths table t + 2) p.linkID p.linkID).map fun (cl, ns) =>
      { cl, c := { c with ns }, p }
  else do
    let ns ← advance table t c.ns
    (spin table t c.ns (paths table t + 2) c.ns ns).map fun (cl, ns) =>
      { cl, c := { c with ns }, p }

/-- `classify(Packet* p)`. -/
def classify (t : T) (locals : Locals) (p : Packet) : Option Answer :=
  if c.packetSpraying ≠ 0 then c.spray table t p
  else if c.flowcellSpraying ≠ 0 then c.flowcell table t p
  else if c.perflow ≠ 0 ∨ (c.packetSpraying = 0 ∧ p.isElephant = 0) then
    c.ecmp table mshift t locals p
  -- no branch for it: the slot is whatever the local held
  else some { cl := locals.cl, c, p }

theorem lt_paths {table : SlotTable T τ} {t : T} {i : Nat} (used : table.slot t i ≠ none) :
    i < paths table t := by
  have below := table.le_maxslot t i used
  rw [paths]
  omega

end MultiPathForwarder

/-! ### Slots in a list -/

section

variable {τ : Type}

/-- The slots without what is empty at the end. -/
def trim : List (Option τ) → List (Option τ)
  | [] => []
  | cell :: cells => if cell.isNone && (trim cells).isEmpty then [] else cell :: trim cells

theorem trim_getElem? (cells : List (Option τ)) (i : Nat) :
    (trim cells)[i]?.join = cells[i]?.join := by
  induction cells generalizing i with
  | nil => rfl
  | cons cell cells ih =>
    rw [trim]
    split_ifs with bare
    · simp only [Bool.and_eq_true, Option.isNone_iff_eq_none, List.isEmpty_iff] at bare
      cases i with
      | zero => simp [bare.1]
      | succ i =>
        have rest := ih i
        rw [bare.2] at rest
        simpa using rest
    · cases i with
      | zero => rfl
      | succ i => simpa using ih i

theorem trim_getLast? (cells : List (Option τ)) : (trim cells).getLast? ≠ some none := by
  induction cells with
  | nil => simp [trim]
  | cons cell cells ih =>
    rw [trim]
    split_ifs with bare
    · simp
    · cases rest : trim cells with
      | nil =>
        rw [rest] at bare
        simpa using bare
      | cons next more =>
        rw [rest] at ih
        simpa [List.getLast?_cons_cons] using ih

/-- The slots up to the last one in use. -/
structure SlotList (τ : Type) where
  cells : List (Option τ)
  last : cells.getLast? ≠ some none

def slotList (τ : Type) : SlotTable (SlotList τ) τ where
  slot := fun t i => t.cells[i]?.join
  maxslot := fun t => t.cells.length - 1
  nslot := fun t => t.cells.length
  create := ⟨[], by simp⟩
  installNext := fun t target => ⟨t.cells ++ [some target], by simp⟩
  clear := fun t i => ⟨trim (t.cells.set i none), trim_getLast? _⟩
  adjacents := fun t => t.cells.zipIdx.filterMap fun (cell, i) => cell.map fun target => (i, target)
  neg_one_le_maxslot := fun t => by omega
  maxslot_lt_nslot := fun t => by omega
  le_maxslot := fun t i used => by
    by_contra past
    rw [List.getElem?_eq_none (by omega)] at used
    exact used rfl
  slot_maxslot := fun t some => by
    have last := t.last
    rw [List.getLast?_eq_getElem?] at last
    have inside : t.cells.length - 1 < t.cells.length := by omega
    rw [show ((t.cells.length : Int) - 1).toNat = t.cells.length - 1 by omega]
    rw [List.getElem?_eq_getElem inside] at last ⊢
    simpa using last
  slot_create := fun i => rfl
  slot_installNext := fun t target i => by
    rw [List.getElem?_append]
    split_ifs with inside new new
    · omega
    · rfl
    · rw [show i - t.cells.length = 0 by omega]
      rfl
    · rw [List.getElem?_eq_none (by simp; omega), List.getElem?_eq_none (by omega)]
  slot_clear := fun t i j => by
    rw [trim_getElem?, List.getElem?_set]
    split_ifs <;> simp_all
  mem_adjacents := fun t i target => by
    simp [List.mem_zipIdx_iff_getElem?, List.mem_filterMap, Option.join_eq_some_iff]

/-- A table whose first slots hold these targets. -/
def installed (targets : List τ) : SlotList τ :=
  targets.foldl (slotList τ).installNext (slotList τ).create

end

end Saps.Classifier
