import Mathlib.Data.List.Lex
import Mathlib.Data.List.TakeWhile

/-!
# Length-counted byte strings and the C strings inside them

A byte string carries its own length and may hold zero bytes. Code that reads
it through a character pointer sees only the bytes before the first zero.
-/

namespace RedisS2Geo.Foundation

/-- A length-counted string of bytes. -/
abbrev Bytes := List UInt8

/-- The byte of an ASCII character. -/
def chr (c : Char) : UInt8 := c.toNat.toUInt8

/-- The bytes of an ASCII text. -/
def ascii (s : String) : Bytes := s.toList.map chr

/-- The part of a byte string that a reader of C strings sees. -/
def cString (s : Bytes) : Bytes := s.takeWhile (· ≠ 0)

/-- No byte is zero, so that the C string is the whole byte string. -/
def NulFree (s : Bytes) : Prop := 0 ∉ s

instance (s : Bytes) : Decidable (NulFree s) :=
  inferInstanceAs (Decidable (0 ∉ s))

/-- Byte strings in lexicographic order. -/
abbrev lexOrder : LinearOrder Bytes :=
  LinearOrder.lift' (fun s : Bytes => s.map UInt8.toNat)
    (List.map_injective_iff.mpr fun _ _ => UInt8.toNat_inj.mp)

theorem cString_eq_self {s : Bytes} (h : NulFree s) : cString s = s := by
  rw [cString, List.takeWhile_eq_self_iff]
  intro b hb
  have hne : b ≠ 0 := fun h0 => h (h0 ▸ hb)
  simpa using hne

theorem length_cString_le (s : Bytes) : (cString s).length ≤ s.length :=
  (List.takeWhile_prefix _).length_le

/-- A C string ends before the first zero byte. -/
theorem ne_zero_of_lt_cString {s : Bytes} {k : Nat} (h : k < (cString s).length) :
    s[k]? ≠ some 0 := by
  have hne : (cString s)[k] ≠ 0 := by
    simpa using List.mem_takeWhile_imp (List.getElem_mem h)
  have hget : s[k]? = some (cString s)[k] :=
    List.prefix_iff_getElem?.mp (List.takeWhile_prefix _) k h
  rw [hget]
  exact fun hzero => hne (Option.some.inj hzero)

@[simp] theorem nulFree_append {s t : Bytes} : NulFree (s ++ t) ↔ NulFree s ∧ NulFree t := by
  simp [NulFree, not_or]

theorem nulFree_intercalate {sep : Bytes} {items : List Bytes} (hsep : NulFree sep)
    (h : ∀ item ∈ items, NulFree item) : NulFree (List.intercalate sep items) := by
  induction items with
  | nil => simp [NulFree]
  | cons first rest ih =>
      have hfirst := h first (by simp)
      have hrest := ih fun item hitem => h item (List.mem_cons_of_mem _ hitem)
      cases rest with
      | nil => simpa using hfirst
      | cons second rest =>
          rw [List.intercalate_cons_cons, nulFree_append, nulFree_append]
          exact ⟨⟨hfirst, hsep⟩, hrest⟩

/-- A delimiter that occurs in neither head separates head from tail uniquely. -/
theorem append_delim_inj {α : Type*} {d : α} {a a' b b' : List α} (ha : d ∉ a) (ha' : d ∉ a') :
    a ++ d :: b = a' ++ d :: b' ↔ a = a' ∧ b = b' := by
  constructor
  · intro h
    rcases List.append_eq_append_iff.mp h with ⟨c, rfl, hc⟩ | ⟨c, rfl, hc⟩
    · cases c with
      | nil => simpa using hc
      | cons x c => simp_all
    · cases c with
      | nil => simpa using hc.symm
      | cons x c => simp_all
  · rintro ⟨rfl, rfl⟩
    rfl

end RedisS2Geo.Foundation
