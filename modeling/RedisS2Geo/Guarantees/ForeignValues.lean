import RedisS2Geo.Store.Runs
import RedisS2Geo.Store.Types

/-!
# Values that the module did not write

The keyspace is shared, and other clients may store anything under the keys of an
index. Nothing of another type is ever overwritten or deleted. A cell info of another
type brings the server down; the states in which it does are known exactly.
-/

namespace RedisS2Geo.Guarantees
open Foundation Source Covering Store

variable {env : Environment} {ω : Orders} {K K' : Keyspace Bytes} {c : Command} {o : Outcome}

/-- A command changes keys of the index it names only, each of them from absent or the
type that the module keeps there to absent or this type. Every other value stays. -/
theorem foreign_values_kept (h : exec env ω c K = some (o, K')) :
    (∀ key, K' key ≠ K key → ∃ i k, c.args.head? = some i ∧ StoreKey.index k = cString i ∧
      key = k.bytes ∧ k.Fits (K key) ∧ k.Fits (K' key)) ∧
    ∀ key type payload, K key = some (.other type payload) → K' key = K key := by
  have hchanges : ∀ key, K' key ≠ K key → ∃ i k, c.args.head? = some i ∧
      StoreKey.index k = cString i ∧ key = k.bytes ∧ k.Fits (K key) ∧ k.Fits (K' key) := by
    intro key hne
    cases hi : c.args.head? with
    | some i =>
        obtain ⟨k, hk⟩ := (exec_effect h).changes hi key hne
        exact ⟨i, k, rfl, hk⟩
    | none =>
        -- without arguments the number of arguments is wrong
        have hs : ¬ Shaped c := by
          intro hs
          cases hs <;> cases hi
        obtain ⟨-, rfl⟩ := exec_unique h (exec_wrongArity ω hs)
        exact absurd rfl hne
  refine ⟨hchanges, fun key type payload hkey => ?_⟩
  by_contra hne
  obtain ⟨i, k, -, -, -, hfits, -⟩ := hchanges key hne
  rw [hkey] at hfits
  exact k.not_fits_other type payload hfits

/-- A string under the key of the bodies outlives the creation of the index. -/
theorem foreign_values_kept_string :
    ∃ o K', exec sampleEnvironment ascending ⟨.iset, [ascii "i"]⟩
        (Function.update emptyKeyspace (ascii "i:polygons")
          (some (.other (ascii "string") (ascii "x")))) = some (o, K') ∧
      K' (ascii "i:polygons") = some (.other (ascii "string") (ascii "x")) := by
  set K : Keyspace Bytes := Function.update emptyKeyspace (ascii "i:polygons")
    (some (.other (ascii "string") (ascii "x"))) with hK
  have hkey : K (ascii "i:polygons") = some (.other (ascii "string") (ascii "x")) :=
    Function.update_self _ _ _
  have hmeta : K (createIndexMetaHashKey (ascii "i")) = none :=
    Function.update_of_ne (by decide) _ _
  have habsent : IndexAbsent K (ascii "i") := ⟨by decide, by rw [hmeta]; rfl⟩
  have he : exec sampleEnvironment ascending ⟨.iset, [ascii "i"]⟩ K = _ :=
    setIndexCommand_absent habsent
  exact ⟨_, _, he, ((foreign_values_kept he).2 _ _ _ hkey).trans hkey⟩

/-- The server dies of a cell info that is no set, and of nothing else: when a body is
stored under its polygon, when this polygon is deleted, or when the loop of `IDEL` gets
to it, that is when every polygon listed before it has terms and a C string of its own. -/
theorem crash_iff (env : Environment) (ω : Orders) (c : Command) (K : Keyspace Bytes) :
    exec env ω c K = none ↔
      (∃ i p b, c = ⟨.polyset, [i, p, b]⟩ ∧ IndexExists K i ∧ Accepted p ∧
        bodyCovering env b ≠ [] ∧ asSet (K (createPolygonCellInfoSetKey i p)) = none) ∨
      (∃ i p, c = ⟨.polydel, [i, p]⟩ ∧ IndexExists K i ∧ Accepted p ∧
        asSet (K (createPolygonCellInfoSetKey i p)) = none) ∨
      ∃ i fields, c = ⟨.idel, [i]⟩ ∧ IndexExists K i ∧
        asHash (K (createIndexPolygonsHashKey i)) = some fields ∧
        ∃ pre p post, ω.hkeys.list fields.keys = pre ++ p :: post ∧
          (∀ q ∈ pre, Clearable K i q) ∧ (pre.map cString).Nodup ∧
          asSet (K (createPolygonCellInfoSetKey i p)) = none := by
  rw [exec_eq_none_iff]
  constructor
  · intro h
    cases h with
    | stored hx hp hb hinfo =>
        exact Or.inl ⟨_, _, _, rfl, hx, hp, bodyTerms_eq_empty_iff.not.mp hb, hinfo⟩
    | removed hx hp hinfo => exact Or.inr (Or.inl ⟨_, _, rfl, hx, hp, hinfo⟩)
    | cleared hx hf hloop =>
        exact Or.inr (Or.inr ⟨_, _, rfl, hx, hf, clearNames_eq_none_iff.mp hloop⟩)
  · rintro (⟨i, p, b, rfl, hx, hp, hb, hinfo⟩ | ⟨i, p, rfl, hx, hp, hinfo⟩ |
      ⟨i, fields, rfl, hx, hf, hloop⟩)
    · exact .stored hx hp (bodyTerms_eq_empty_iff.not.mpr hb) hinfo
    · exact .removed hx hp hinfo
    · exact .cleared hx hf (clearNames_eq_none_iff.mpr hloop)

end RedisS2Geo.Guarantees
