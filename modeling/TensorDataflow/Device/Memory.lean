import Std.Data.TreeMap
/-!
# Addresses and bytes

Memory is a finite set of bytes at natural addresses, and every other byte is zero. Reading and
writing know nothing of allocations: which ranges may be touched is the device's business.
`Memory.byte_write`, `Memory.byte_clear` and `Memory.byte_copy` say what is done to every byte.
-/

namespace TensorDataflow

/-- A place in memory; zero is none. -/
structure Address where
  val : Nat
  deriving DecidableEq, Repr, Inhabited

namespace Address

/-- The addresses a machine word can name. -/
def limit : Nat := 0x10000000000000000

def ofNat? (n : Nat) : Option Address := if n = 0 then none else some ⟨n⟩

/-- The address some bytes further on, if there is one. -/
def offset? (a : Address) (bytes : Nat) : Option Address :=
  if a.val + bytes < limit then ofNat? (a.val + bytes) else none

def text (a : Address) : String := "0x" ++ String.ofList (Nat.toDigits 16 a.val)

/-- The address as it is shown to a developer. -/
def debugText (a : Address) : String := "DevicePtr(" ++ a.text ++ ")"

end Address

/-- The bytes that have been written; the others are zero. -/
structure Memory where
  cells : Std.TreeMap Nat UInt8

namespace Memory

def empty : Memory := ⟨∅⟩

instance : Inhabited Memory := ⟨empty⟩

def byte (m : Memory) (address : Nat) : UInt8 := m.cells.getD address 0

def setByte (m : Memory) (address : Nat) (b : UInt8) : Memory := ⟨m.cells.insert address b⟩

/-- The bytes from an address on. -/
def read (m : Memory) (address : Nat) : (length : Nat) → List UInt8
  | 0 => []
  | length + 1 => m.byte address :: m.read (address + 1) length

/-- Writes bytes from an address on. -/
def write (m : Memory) (address : Nat) : List UInt8 → Memory
  | [] => m
  | b :: bs => (m.setByte address b).write (address + 1) bs

/-- Makes a range of bytes zero. -/
def clear (m : Memory) (address length : Nat) : Memory :=
  ⟨m.cells.filter fun a _ => ¬ (address ≤ a ∧ a < address + length)⟩

/-- The bytes that have been written in a range, at the addresses they take in a range of the same
length elsewhere. -/
def moved (m : Memory) (target source length : Nat) : List (Nat × UInt8) :=
  (m.cells.toList.filter fun cell => source ≤ cell.1 ∧ cell.1 < source + length).map
    fun cell => (target + (cell.1 - source), cell.2)

/-- Copies a range of bytes to another, which may overlap it, by way of the shorter of two lists:
all bytes of the range or all that have been written. -/
def copy (m : Memory) (target source length : Nat) : Memory :=
  if length ≤ m.cells.size then m.write target (m.read source length)
  else ⟨(m.cells.filter fun a _ => ¬ (target ≤ a ∧ a < target + length)).insertMany
      (m.moved target source length)⟩

/-! ### Bytes after reading and writing -/

@[simp] theorem byte_empty (a : Nat) : empty.byte a = 0 := rfl

theorem byte_setByte (m : Memory) (a : Nat) (b : UInt8) (c : Nat) :
    (m.setByte a b).byte c = if a = c then b else m.byte c := by
  simp [byte, setByte, Std.TreeMap.getD_insert]

@[simp] theorem length_read (m : Memory) (a n : Nat) : (m.read a n).length = n := by
  induction n generalizing a with
  | zero => rfl
  | succ n ih => simp [read, ih]

/-- A write leaves every byte before it as it was. -/
theorem byte_write_of_lt (m : Memory) {a c : Nat} (bs : List UInt8) (h : c < a) :
    (m.write a bs).byte c = m.byte c := by
  induction bs generalizing m a with
  | nil => rfl
  | cons b bs ih => rw [write, ih _ (by omega), byte_setByte, if_neg (by omega)]

/-- A write changes the bytes that it covers to those written, and no others. -/
theorem byte_write (m : Memory) (a : Nat) (bs : List UInt8) (c : Nat) :
    (m.write a bs).byte c = if a ≤ c ∧ c < a + bs.length then bs.getD (c - a) 0 else m.byte c := by
  induction bs generalizing m a with
  | nil =>
      rw [write, if_neg]
      rintro ⟨hle, hlt⟩
      rw [List.length_nil] at hlt
      omega
  | cons b bs ih =>
      rw [write, ih, byte_setByte]
      grind

/-- What was written is read back. -/
theorem read_write (m : Memory) (a : Nat) (bs : List UInt8) :
    (m.write a bs).read a bs.length = bs := by
  induction bs generalizing m a with
  | nil => rfl
  | cons b bs ih =>
      rw [List.length_cons, read, write, ih, byte_write_of_lt _ _ (by omega),
        byte_setByte, if_pos rfl]

/-- Clearing a range makes its bytes zero, and changes no others. -/
theorem byte_clear (m : Memory) (a n c : Nat) :
    (m.clear a n).byte c = if a ≤ c ∧ c < a + n then 0 else m.byte c := by
  rw [byte, clear, Std.TreeMap.getD_eq_getD_getElem?, Std.TreeMap.getElem?_filter', byte,
    Std.TreeMap.getD_eq_getD_getElem?]
  by_cases hin : a ≤ c ∧ c < a + n
  · rw [if_pos hin]
    cases m.cells[c]? <;> simp [hin, Option.filter]
  · rw [if_neg hin]
    cases m.cells[c]? <;> simp [hin, Option.filter]

theorem getElem?_read (m : Memory) (a n i : Nat) :
    (m.read a n)[i]? = if i < n then some (m.byte (a + i)) else none := by
  induction n generalizing a i with
  | zero => simp [read]
  | succ n ih =>
      cases i with
      | zero => simp [read]
      | succ i => simp [read, ih, Nat.add_assoc, Nat.add_comm 1 i]

/-! ### Bytes after a copy -/

theorem mem_moved {m : Memory} {target source length a : Nat} {b : UInt8} :
    (a, b) ∈ m.moved target source length ↔
      target ≤ a ∧ a < target + length ∧ m.cells[source + (a - target)]? = some b := by
  simp only [moved, List.mem_map, List.mem_filter, Prod.exists, decide_eq_true_eq, Prod.mk.injEq,
    Std.TreeMap.mem_toList_iff_getElem?_eq_some]
  constructor
  · rintro ⟨c, b', ⟨hb, hle, hlt⟩, rfl, rfl⟩
    refine ⟨by omega, by omega, ?_⟩
    rwa [show source + (target + (c - source) - target) = c by omega]
  · rintro ⟨hle, hlt, hb⟩
    exact ⟨_, _, ⟨hb, by omega, by omega⟩, by omega, rfl⟩

/-- No two bytes are moved to one address. -/
theorem pairwise_moved (m : Memory) (target source length : Nat) :
    (m.moved target source length).Pairwise fun x y => ¬ compare x.1 y.1 = .eq := by
  rw [moved, List.pairwise_map]
  refine (m.cells.distinct_keys_toList.filter _).imp_of_mem ?_
  intro x y hx hy hne
  simp only [List.mem_filter, decide_eq_true_eq] at hx hy
  simp only [Nat.compare_eq_eq] at hne ⊢
  omega

/-- An address to which no written byte is moved. -/
theorem contains_moved_eq_false {m : Memory} {target source length c : Nat}
    (h : target ≤ c → c < target + length → m.cells[source + (c - target)]? = none) :
    ((m.moved target source length).map Prod.fst).contains c = false := by
  simp only [List.contains_eq_mem, List.mem_map, Prod.exists, exists_and_right, exists_eq_right,
    decide_eq_false_iff_not, not_exists, mem_moved]
  rintro b ⟨hle, hlt, hb⟩
  rw [h hle hlt] at hb
  cases hb

/-- A copy changes the bytes of its target to those that its source held before, and no others. -/
theorem byte_copy (m : Memory) (target source length c : Nat) :
    (m.copy target source length).byte c = if target ≤ c ∧ c < target + length
      then m.byte (source + (c - target)) else m.byte c := by
  unfold copy
  split
  · rw [byte_write, length_read]
    by_cases hin : target ≤ c ∧ c < target + length
    · rw [if_pos hin, if_pos hin, List.getD_eq_getElem?_getD, getElem?_read, if_pos (by omega),
        Option.getD_some]
    · rw [if_neg hin, if_neg hin]
  · unfold byte
    by_cases hin : target ≤ c ∧ c < target + length
    · rw [if_pos hin]
      cases hb : m.cells[source + (c - target)]? with
      | some b =>
          have hmem : (c, b) ∈ m.moved target source length := mem_moved.2 ⟨hin.1, hin.2, hb⟩
          rw [Std.TreeMap.getD_insertMany_list_of_mem (by simp)
            (m.pairwise_moved target source length) hmem,
            Std.TreeMap.getD_eq_getD_getElem?, hb, Option.getD_some]
      | none =>
          rw [Std.TreeMap.getD_eq_getD_getElem?,
            Std.TreeMap.getElem?_insertMany_list_of_contains_eq_false
              (contains_moved_eq_false fun _ _ => hb),
            Std.TreeMap.getElem?_filter', Std.TreeMap.getD_eq_getD_getElem?, hb]
          simp [hin]
    · rw [if_neg hin, Std.TreeMap.getD_eq_getD_getElem?,
        Std.TreeMap.getElem?_insertMany_list_of_contains_eq_false
          (contains_moved_eq_false fun hle hlt => absurd ⟨hle, hlt⟩ hin),
        Std.TreeMap.getElem?_filter', Std.TreeMap.getD_eq_getD_getElem?]
      cases m.cells[c]? <;> simp [hin, Option.filter]

end Memory

end TensorDataflow
