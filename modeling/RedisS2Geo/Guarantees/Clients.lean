import Mathlib.Order.CompletePartialOrder
import RedisS2Geo.Foundation.Interleaving
import RedisS2Geo.Store.Runs

/-!
# Clients that write different polygons

A write of one polygon amounts to an edit of the contents that is local to its
name. Edits local to different names commute, and contents determine the
keyspace, cells shared by both polygons included. Hence two clients with disjoint
polygon names do not disturb each other in any interleaving.
-/

namespace RedisS2Geo.Guarantees
open Foundation Source Covering Store

/-- An edit of the polygons of an index, with its reply, that concerns one name only. -/
structure LocalEdit (p : Bytes) (edit : Polygons → Polygons) (reply : Polygons → Outcome) :
    Prop where
  other : ∀ m q, q ≠ p → (edit m).lookup q = m.lookup q
  same : ∀ {m m' : Polygons}, m.lookup p = m'.lookup p → (edit m).lookup p = (edit m').lookup p
  reply_eq : ∀ {m m' : Polygons}, m.lookup p = m'.lookup p → reply m = reply m'

namespace LocalEdit
variable {p q : Bytes} {f g : Polygons → Polygons} {r s : Polygons → Outcome}

/-- Edits of different names commute. -/
theorem comm (hf : LocalEdit p f r) (hg : LocalEdit q g s) (h : p ≠ q) (m : Polygons) :
    f (g m) = g (f m) := by
  apply Finmap.ext_lookup
  intro x
  by_cases hp : x = p
  · subst hp
    rw [hg.other (f m) x h, hf.same (hg.other m x h)]
  · rw [hf.other (g m) x hp]
    by_cases hq : x = q
    · subst hq
      exact hg.same (hf.other m x hp).symm
    · rw [hg.other m x hq, hg.other (f m) x hq, hf.other m x hp]

/-- An edit of another name does not show in the reply. -/
theorem reply_comm (hf : LocalEdit p f r) (hg : LocalEdit q g s) (h : p ≠ q) (m : Polygons) :
    r (g m) = r m :=
  hf.reply_eq (hg.other m p h)

/-- A command that changes nothing. -/
theorem id (p : Bytes) (o : Outcome) : LocalEdit p (fun m => m) fun _ => o :=
  ⟨fun _ _ _ => rfl, fun h => h, fun _ => rfl⟩

theorem insert (p b : Bytes) :
    LocalEdit p (fun m => m.insert p b) fun _ => replyWithLongLong 1 where
  other m _ h := Finmap.lookup_insert_of_ne m h
  same _ := by rw [Finmap.lookup_insert, Finmap.lookup_insert]
  reply_eq _ := rfl

theorem erase (p : Bytes) :
    LocalEdit p (fun m => m.erase p)
      fun m => replyWithLongLong (if (m.lookup p).isSome then 1 else 0) where
  other _ _ h := Finmap.lookup_erase_ne h
  same _ := by rw [Finmap.lookup_erase, Finmap.lookup_erase]
  reply_eq h := by rw [h]

end LocalEdit

variable {env : Environment} {K : Keyspace Bytes} {i p : Bytes}

/-- The writes of one polygon of one index. -/
inductive Writes (i p : Bytes) : Command → Prop
  | polyset (b : Bytes) : Writes i p ⟨.polyset, [i, p, b]⟩
  | polydel : Writes i p ⟨.polydel, [i, p]⟩

/-- A command performs an edit on every keyspace that stands for contents with the index. -/
def Performs (env : Environment) (i : Bytes) (l : Orders × Command)
    (edit : Polygons → Polygons) (reply : Polygons → Outcome) : Prop :=
  ∀ K A m, Represents env K A → A (cString i) = some m →
    ∃ K', step env l K = some (reply m, K') ∧
      Represents env K' (Function.update A (cString i) (some (edit m)))

theorem performs_unchanged {l : Orders × Command} {o : Outcome}
    (h : ∀ K A m, Represents env K A → A (cString i) = some m → step env l K = some (o, K)) :
    Performs env i l (fun m => m) fun _ => o := by
  intro K A m hK hA
  refine ⟨K, h K A m hK hA, ?_⟩
  rwa [← hA, Function.update_eq_self]

/-- Every write performs an edit that is local to its polygon. -/
theorem exists_edit (env : Environment) {l : Orders × Command} (hi : Accepted i) (hp : NulFree p)
    (hl : Writes i p l.2) :
    ∃ edit reply, LocalEdit p edit reply ∧ Performs env i l edit reply := by
  obtain ⟨ω, c⟩ := l
  by_cases hacc : Accepted p
  · have hplain : PlainName p := ⟨hacc, hp⟩
    cases hl with
    | polyset b =>
        by_cases hb : bodyTerms env b = ∅
        · obtain ⟨text, -, he⟩ := setPolygonCommand_refused ω hacc hb
          exact ⟨_, _, .id p (replyWithError text),
            performs_unchanged fun K A m h hA => he K (h.indexExists hi hA)⟩
        · exact ⟨_, _, .insert p b, fun K A m h hA =>
            h.setPolygonCommand_plain ω hi hA hplain hb⟩
    | polydel =>
        refine ⟨_, _, .erase p, fun K A m h hA => ?_⟩
        by_cases hmem : p ∈ m
        · have hsome : (m.lookup p).isSome := Finmap.lookup_isSome.mpr hmem
          simp only [hsome, if_true]
          exact h.deletePolygonCommand_mem ω hi hA hmem
        · have hnone : ¬ (m.lookup p).isSome := Finmap.lookup_isSome.not.mpr hmem
          refine ⟨K, ?_, ?_⟩
          · rw [if_neg hnone]
            exact h.deletePolygonCommand_notMem ω hi hA hacc (by rwa [hplain.cString_eq])
          · rw [finmap_erase_of_notMem hmem, ← hA, Function.update_eq_self]
            exact h
  · have hshaped : Shaped c := by cases hl <;> constructor
    have hhead : c.args.head? = some i := by cases hl <;> rfl
    have hbad : ∃ n ∈ names c, ¬ Accepted n := by
      cases hl <;> exact ⟨p, by simp [names], hacc⟩
    exact ⟨_, _, .id p _, performs_unchanged fun K A m _ _ =>
      exec_polygonName_refused ω hshaped hhead hi hbad⟩

/-- The keyspace stands for contents that have the index. -/
def HasIndex (env : Environment) (i : Bytes) (K : Keyspace Bytes) : Prop :=
  ∃ A m, Represents env K A ∧ A (cString i) = some m

theorem writes_keep {l : Orders × Command} (hi : Accepted i) (hp : NulFree p)
    (hl : Writes i p l.2) (hK : HasIndex env i K) :
    ∃ o K', step env l K = some (o, K') ∧ HasIndex env i K' := by
  obtain ⟨edit, reply, -, hperf⟩ := exists_edit env hi hp hl
  obtain ⟨A, m, h, hA⟩ := hK
  obtain ⟨K', hs, h'⟩ := hperf K A m h hA
  exact ⟨_, K', hs, _, _, h', Function.update_self _ _ _⟩

/-- Writes of different polygons commute, in the keyspace and in both replies. -/
theorem writes_commute {a b : Orders × Command} {q : Bytes} (hi : Accepted i)
    (hp : NulFree p) (hq : NulFree q) (ha : Writes i p a.2) (hb : Writes i q b.2) (hne : p ≠ q)
    (hK : HasIndex env i K) : CommuteAt (step env) a b K := by
  obtain ⟨f, r, hf, hfa⟩ := exists_edit env hi hp ha
  obtain ⟨g, s, hg, hgb⟩ := exists_edit env hi hq hb
  obtain ⟨A, m, h, hA⟩ := hK
  obtain ⟨K₁, hs₁, h₁⟩ := hfa K A m h hA
  obtain ⟨K₂, hs₂, h₂⟩ := hgb K A m h hA
  obtain ⟨K₃, hs₃, h₃⟩ := hgb K₁ _ _ h₁ (Function.update_self _ _ _)
  obtain ⟨K₄, hs₄, h₄⟩ := hfa K₂ _ _ h₂ (Function.update_self _ _ _)
  rw [hg.reply_comm hf hne.symm] at hs₃
  rw [hf.reply_comm hg hne] at hs₄
  rw [Function.update_idem] at h₃ h₄
  -- both orders lead to the same contents, and contents have one keyspace
  rw [hf.comm hg hne] at h₄
  obtain rfl := h₃.unique h₄
  exact ⟨_, _, K₁, K₂, K₃, hs₁, hs₃, hs₂, hs₄⟩

/-- Every interleaving of two clients that write disjoint sets of polygons ends where the
sequential run ends, and every command gets the reply it gets there. -/
theorem interleaving_eq_sequential (hK : ReachableStore env K) (hx : IndexExists K i)
    {P Q : Set Bytes} (hdisj : Disjoint P Q) {xs ys : List (Orders × Command)}
    (hxs : ∀ l ∈ xs, ∃ p ∈ P, NulFree p ∧ Writes i p l.2)
    (hys : ∀ l ∈ ys, ∃ q ∈ Q, NulFree q ∧ Writes i q l.2)
    {zs : List ((Orders × Command) ⊕ (Orders × Command))} (hl : lefts zs = xs)
    (hr : rights zs = ys) :
    ∃ os₁ K₁ os₂ K' os, run (step env) xs K = some (os₁, K₁) ∧
      run (step env) ys K₁ = some (os₂, K') ∧
      run (shared (step env)) zs K = some (os, K') ∧ lefts os = os₁ ∧ rights os = os₂ := by
  subst hl hr
  obtain ⟨A, h⟩ := hK.represents
  obtain ⟨m, hA⟩ := h.exists_polygons hx
  have hi : Accepted i := hx.accepted
  have hinv : HasIndex env i K := ⟨A, m, h, hA⟩
  refine run_interleaving ?_ ?_ ?_ hinv
  · intro a ha L hL
    obtain ⟨p, -, hp, hw⟩ := hxs a ha
    exact writes_keep hi hp hw hL
  · intro b hb L hL
    obtain ⟨q, -, hq, hw⟩ := hys b hb
    exact writes_keep hi hq hw hL
  · intro a ha b hb L hL
    obtain ⟨p, hpP, hp, hwa⟩ := hxs a ha
    obtain ⟨q, hqQ, hq, hwb⟩ := hys b hb
    have hne : p ≠ q := by
      rintro rfl
      exact Set.disjoint_left.mp hdisj hpP hqQ
    exact writes_commute hi hp hq hwa hwb hne hL

/-- The two polygons have the same cells, and the second client deletes its polygon. -/
def sampleInterleaving : List ((Orders × Command) ⊕ (Orders × Command)) :=
  [.inr (ascending, ⟨.polyset, [ascii "i", ascii "q", holeBody]⟩),
    .inl (ascending, ⟨.polyset, [ascii "i", ascii "p", holeBody]⟩),
    .inr (ascending, ⟨.polydel, [ascii "i", ascii "q"]⟩)]

theorem interleaving_eq_sequential_sample :
    ∃ K, ReachableStore sampleEnvironment K ∧
      ∃ os₁ K₁ os₂ K' os, run (step sampleEnvironment) (lefts sampleInterleaving) K =
          some (os₁, K₁) ∧
        run (step sampleEnvironment) (rights sampleInterleaving) K₁ = some (os₂, K') ∧
        run (shared (step sampleEnvironment)) sampleInterleaving K = some (os, K') ∧
        lefts os = os₁ ∧ rights os = os₂ := by
  obtain ⟨K, hK, hx, -⟩ := exists_sample covered_holeBody
  have hdisj : Disjoint ({ascii "p"} : Set Bytes) {ascii "q"} := by
    rw [Set.disjoint_singleton]
    decide
  refine ⟨K, hK, interleaving_eq_sequential hK hx hdisj ?_ ?_ rfl rfl⟩
  · intro l hl
    obtain rfl := List.mem_singleton.mp hl
    exact ⟨_, rfl, by decide, .polyset _⟩
  · intro l hl
    have hl' : l = (ascending, ⟨.polyset, [ascii "i", ascii "q", holeBody]⟩) ∨
        l = (ascending, ⟨.polydel, [ascii "i", ascii "q"]⟩) := by
      simpa [sampleInterleaving] using hl
    rcases hl' with rfl | rfl
    · exact ⟨_, rfl, by decide, .polyset _⟩
    · exact ⟨_, rfl, by decide, .polydel⟩

end RedisS2Geo.Guarantees
