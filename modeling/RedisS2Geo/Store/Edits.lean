import RedisS2Geo.Foundation.Logs
import RedisS2Geo.Store.SpatialIndex

/-!
# What a command does to the contents

A command leaves the contents as they are or edits the polygons of one index. The edit is
read off the command alone. All that logs of commands do to the store follows from the
algebra of these edits.
-/

namespace RedisS2Geo.Store
open Foundation Source Covering

section Edits
variable (env : Environment)

/-- The index that a command edits, with what happens to its polygons. -/
def edit : Command → Option (Bytes × (Option Polygons → Option Polygons))
  | ⟨.iset, [i]⟩ => if Refused i then none else some (i, fun m => some (m.getD ∅))
  | ⟨.idel, [i]⟩ => if Refused i then none else some (i, fun _ => none)
  | ⟨.polyset, [i, p, b]⟩ =>
      if Refused i ∨ Refused p ∨ bodyCovering env b = [] then none
      else some (i, Option.map fun m => m.insert p b)
  | ⟨.polydel, [i, p]⟩ =>
      if Refused i ∨ Refused p then none else some (i, Option.map fun m => m.erase p)
  | _ => none

/-- The contents after a command. -/
def edited (c : Command) (A : Contents) : Contents :=
  (edit env c).elim A fun e => Function.update A e.1 (e.2 (A e.1))

end Edits

variable {env : Environment} {A A' : Contents} {c d : Command} {i p : Bytes}

theorem edited_of_none (h : edit env c = none) (A : Contents) : edited env c A = A := by
  rw [edited, h, Option.elim_none]

theorem edited_of_some {f : Option Polygons → Option Polygons} (h : edit env c = some (i, f))
    (A : Contents) : edited env c A = Function.update A i (f (A i)) := by
  rw [edited, h, Option.elim_some]

theorem update_of_eq {x : Option Polygons} (h : A i = x) : Function.update A i x = A := by
  rw [← h, Function.update_eq_self]

/-! ### The edit is the effect -/

theorem edit_eq_none_of_not_shaped (h : ¬ Shaped c) : edit env c = none := by
  obtain ⟨name, args⟩ := c
  cases name with
  | iset | idel =>
      match args, h with
      | [], _ | _ :: _ :: _, _ => rfl
      | [_], h => exact absurd (by constructor) h
  | polyset =>
      match args, h with
      | [], _ | [_], _ | [_, _], _ | _ :: _ :: _ :: _ :: _, _ => rfl
      | [_, _, _], h => exact absurd (by constructor) h
  | polydel =>
      match args, h with
      | [], _ | [_], _ | _ :: _ :: _ :: _, _ => rfl
      | [_, _], h => exact absurd (by constructor) h
  | _ => rfl

theorem edit_eq_none_of_refused (hs : Shaped c) (h : ∃ n ∈ names c, Refused n) :
    edit env c = none := by
  cases hs with
  | iset i | idel i => simpa [edit, names] using h
  | polyset i p b =>
      have hr : Refused i ∨ Refused p := by simpa [names] using h
      rw [edit, if_pos (or_assoc.mp (Or.inl hr))]
  | polydel i p =>
      have hr : Refused i ∨ Refused p := by simpa [names] using h
      rw [edit, if_pos hr]
  | _ => rfl

theorem spatialStep_of_refused (hs : Shaped c) (h : ∃ n ∈ names c, Refused n) (A : Contents) :
    (spatialStep env c A).2 = A := by
  rw [spatialStep, if_neg (not_not.mpr hs)]
  split
  · rfl
  · rfl

theorem spatialStep_of_not_refused (hs : Shaped c) (h : ¬ ∃ n ∈ names c, Refused n)
    (A : Contents) : spatialStep env c A = spatialEffect env c A := by
  have hhead : ¬ ∃ i, c.args.head? = some i ∧ Refused i := by
    rintro ⟨i, hi, hr⟩
    refine h ⟨i, ?_, hr⟩
    cases hs <;> obtain rfl := Option.some.inj hi <;> simp [names]
  rw [spatialStep, if_neg (not_not.mpr hs), if_neg hhead, if_neg h]

/-- A body that is not stored leaves the contents as they are. -/
theorem accepting_snd {body : Bytes} {effect : IndexReply × Contents} :
    (accepting env body A effect).2 = if bodyCovering env body = [] then A else effect.2 := by
  have hnone : parsePolygon env body = none → bodyCovering env body = [] := by
    intro h
    rw [bodyCovering, h, getPolygonCovering]
  rw [accepting]
  split
  · rw [if_pos (hnone ‹_›)]
  · split <;> rfl

theorem spatialEffect_polyset {b : Bytes} (h : ¬ (Refused i ∨ Refused p)) (A : Contents) :
    (spatialEffect env ⟨.polyset, [i, p, b]⟩ A).2 = edited env ⟨.polyset, [i, p, b]⟩ A := by
  by_cases hb : bodyCovering env b = []
  · have he : edit env ⟨.polyset, [i, p, b]⟩ = none := if_pos (Or.inr (Or.inr hb))
    rw [edited_of_none he]
    cases hA : A i with
    | none => simp [spatialEffect, hA]
    | some m => simp [spatialEffect, hA, accepting_snd, hb]
  · have he : edit env ⟨.polyset, [i, p, b]⟩ = some (i, Option.map fun m => m.insert p b) :=
      if_neg fun hr => (or_assoc.mpr hr).elim h hb
    rw [edited_of_some he]
    cases hA : A i with
    | none => simp [spatialEffect, hA]
    | some m => simp [spatialEffect, hA, accepting_snd, hb]

/-- The effect of the spatial index on the contents is the edit. -/
theorem spatialStep_snd (c : Command) (A : Contents) :
    (spatialStep env c A).2 = edited env c A := by
  by_cases hs : Shaped c
  · by_cases hr : ∃ n ∈ names c, Refused n
    · rw [spatialStep_of_refused hs hr, edited_of_none (edit_eq_none_of_refused hs hr)]
    · rw [spatialStep_of_not_refused hs hr]
      cases hs with
      | iset i =>
          have hi : ¬ Refused i := by simpa [names] using hr
          have he : edit env ⟨.iset, [i]⟩ = some (i, fun m => some (m.getD ∅)) := if_neg hi
          rw [edited_of_some he]
          cases hA : A i with
          | none => simp [spatialEffect, hA]
          | some m => simp [spatialEffect, hA]
      | idel i =>
          have hi : ¬ Refused i := by simpa [names] using hr
          have he : edit env ⟨.idel, [i]⟩ = some (i, fun _ => none) := if_neg hi
          rw [edited_of_some he]
          cases hA : A i with
          | none => simp [spatialEffect, hA]
          | some m => simp [spatialEffect, hA]
      | polyset i p b =>
          have hn : ¬ (Refused i ∨ Refused p) := by simpa [names] using hr
          exact spatialEffect_polyset hn A
      | polydel i p =>
          have hn : ¬ (Refused i ∨ Refused p) := by simpa [names] using hr
          have he : edit env ⟨.polydel, [i, p]⟩ = some (i, Option.map fun m => m.erase p) :=
            if_neg hn
          rw [edited_of_some he]
          cases hA : A i with
          | none => simp [spatialEffect, hA]
          | some m =>
              by_cases hp : p ∈ m
              · simp [spatialEffect, hA, hp]
              · rw [Option.map_some, finmap_erase_of_notMem hp, update_of_eq hA]
                simp [spatialEffect, hA, hp]
      | polysearch i b =>
          rw [edited_of_none rfl, spatialEffect]
          cases A i with
          | none => rfl
          | some m => exact accepting_snd.trans (ite_self A)
      | pointsearch i b =>
          rw [edited_of_none rfl, spatialEffect]
          cases A i with
          | none => rfl
          | some m => cases parseLatLng env b <;> rfl
      | iget i =>
          rw [edited_of_none rfl]
          cases hA : A i <;> simp [spatialEffect, hA]
      | polyget i p | polymget i p rest | polylist i => rfl
  · rw [edited_of_none (edit_eq_none_of_not_shaped hs), spatialStep, if_pos hs]

/-! ### Runs -/

section Runs
variable {K : Keyspace Bytes} {commands commands' : List (Orders × Command)}

/-- After a run the keyspace stands for the contents with all edits. -/
theorem Represents.run (h : Represents env K A) (hc : ∀ l ∈ commands, NulFreeNames l.2) :
    ∃ outcomes K', run (step env) commands K = some (outcomes, K') ∧
      Represents env K' (replay (edited env) (commands.map Prod.snd) A) := by
  induction commands generalizing K A with
  | nil => exact ⟨[], K, rfl, h⟩
  | cons l commands ih =>
      obtain ⟨ω, c⟩ := l
      obtain ⟨o, K₁, he, -, h₁⟩ := h.refines ω (hc (ω, c) (by simp))
      rw [spatialStep_snd] at h₁
      obtain ⟨os, K', hrun, h'⟩ := ih h₁ fun k hk => hc k (by simp [hk])
      exact ⟨o :: os, K', run_cons_eq_some.mpr ⟨o, K₁, os, he, hrun, rfl⟩, h'⟩

/-- Runs with the same edits end in the same keyspace. -/
theorem Represents.run_eq (h : Represents env K A) (hc : ∀ l ∈ commands, NulFreeNames l.2)
    (hc' : ∀ l ∈ commands', NulFreeNames l.2)
    (hsame : replay (edited env) (commands.map Prod.snd) A =
      replay (edited env) (commands'.map Prod.snd) A) :
    ∃ os os' K', Foundation.run (step env) commands K = some (os, K') ∧
      Foundation.run (step env) commands' K = some (os', K') := by
  obtain ⟨os, K₁, hrun, h₁⟩ := h.run hc
  obtain ⟨os', K₂, hrun', h₂⟩ := h.run hc'
  rw [← hsame] at h₂
  obtain rfl : K₁ = K₂ := h₁.unique h₂
  exact ⟨os, os', K₁, hrun, hrun'⟩

end Runs

/-! ### The algebra of edits -/

/-- The four edits, one for each command that writes, with what has to be accepted. -/
inductive Edits (env : Environment) :
    Command → Bytes → (Option Polygons → Option Polygons) → Prop
  | create {i : Bytes} (hi : ¬ Refused i) : Edits env ⟨.iset, [i]⟩ i fun m => some (m.getD ∅)
  | delete {i : Bytes} (hi : ¬ Refused i) : Edits env ⟨.idel, [i]⟩ i fun _ => none
  | put {i p b : Bytes} (hi : ¬ Refused i) (hp : ¬ Refused p) (hb : bodyCovering env b ≠ []) :
      Edits env ⟨.polyset, [i, p, b]⟩ i (Option.map fun m => m.insert p b)
  | remove {i p : Bytes} (hi : ¬ Refused i) (hp : ¬ Refused p) :
      Edits env ⟨.polydel, [i, p]⟩ i (Option.map fun m => m.erase p)

variable {f : Option Polygons → Option Polygons}

theorem edit_eq_some_iff : edit env c = some (i, f) ↔ Edits env c i f := by
  constructor
  · intro h
    by_cases hs : Shaped c
    · cases hs with
      | iset j =>
          by_cases hr : Refused j <;> simp only [edit, hr, if_true, if_false] at h <;> cases h
          exact .create hr
      | idel j =>
          by_cases hr : Refused j <;> simp only [edit, hr, if_true, if_false] at h <;> cases h
          exact .delete hr
      | polyset j p b =>
          by_cases hr : Refused j ∨ Refused p ∨ bodyCovering env b = [] <;>
            simp only [edit, hr, if_true, if_false] at h <;> cases h
          push Not at hr
          exact .put hr.1 hr.2.1 hr.2.2
      | polydel j p =>
          by_cases hr : Refused j ∨ Refused p <;>
            simp only [edit, hr, if_true, if_false] at h <;> cases h
          push Not at hr
          exact .remove hr.1 hr.2
      | _ => cases h
    · rw [edit_eq_none_of_not_shaped hs] at h
      cases h
  · intro h
    cases h with
    | create hi | delete hi => exact if_neg hi
    | put hi hp hb => exact if_neg (by simp [hi, hp, hb])
    | remove hi hp => exact if_neg (by simp [hi, hp])

theorem Edits.edited_eq (h : Edits env c i f) (A : Contents) :
    edited env c A = Function.update A i (f (A i)) :=
  edited_of_some (edit_eq_some_iff.mpr h) A

theorem Edits.head (h : Edits env c i f) : c.args.head? = some i := by
  cases h <;> rfl

theorem Edits.not_refused (h : Edits env c i f) : ¬ Refused i := by
  cases h <;> assumption

/-- An edit may be repeated. -/
theorem Edits.idem (h : Edits env c i f) (x : Option Polygons) : f (f x) = f x := by
  cases h with
  | create | delete => rfl
  | put =>
      cases x with
      | none => rfl
      | some m => exact congrArg some (Finmap.insert_insert m)
  | remove =>
      cases x with
      | none => rfl
      | some m => exact congrArg some (finmap_erase_of_notMem Finmap.notMem_erase_self)

/-- A command may be repeated. -/
theorem edited_idem (c : Command) (A : Contents) :
    edited env c (edited env c A) = edited env c A := by
  cases he : edit env c with
  | none => rw [edited_of_none he]
  | some e =>
      obtain ⟨i, f⟩ := e
      rw [edited_of_some he, edited_of_some he, Function.update_self, Function.update_idem,
        (edit_eq_some_iff.mp he).idem]

/-! ### Overwritten commands -/

/-- The contents agree on all indexes but one. -/
def AgreeOff (i : Bytes) (A A' : Contents) : Prop := ∀ j, j ≠ i → A j = A' j

/-- The contents agree on all polygons but one. -/
def AgreeAway (i p : Bytes) (A A' : Contents) : Prop :=
  AgreeOff i A A' ∧ (A i).map (fun m => m.erase p) = (A' i).map fun m => m.erase p

theorem Edits.edited_apply_of_ne {j : Bytes} (h : Edits env c i f) (hj : j ≠ i)
    (A : Contents) : edited env c A j = A j := by
  rw [h.edited_eq, Function.update_of_ne hj]

theorem AgreeOff.keep (h : AgreeOff i A A') (c : Command) :
    AgreeOff i (edited env c A) (edited env c A') := by
  cases he : edit env c with
  | none => rwa [edited_of_none he, edited_of_none he]
  | some e =>
      obtain ⟨j, f⟩ := e
      intro k hk
      by_cases hkj : k = j
      · subst hkj
        rw [edited_of_some he, edited_of_some he, Function.update_self, Function.update_self,
          h k hk]
      · rw [(edit_eq_some_iff.mp he).edited_apply_of_ne hkj,
          (edit_eq_some_iff.mp he).edited_apply_of_ne hkj, h k hk]

theorem erase_insert_self (m : Polygons) (p b : Bytes) : (m.insert p b).erase p = m.erase p := by
  apply Finmap.ext_lookup
  intro q
  by_cases hq : q = p
  · subst hq
    rw [Finmap.lookup_erase, Finmap.lookup_erase]
  · rw [Finmap.lookup_erase_ne hq, Finmap.lookup_erase_ne hq, Finmap.lookup_insert_of_ne m hq]

theorem erase_insert_of_ne {q b : Bytes} (h : q ≠ p) (m : Polygons) :
    (m.insert q b).erase p = (m.erase p).insert q b := by
  apply Finmap.ext_lookup
  intro r
  by_cases hr : r = p
  · subst hr
    rw [Finmap.lookup_erase, Finmap.lookup_insert_of_ne _ h.symm, Finmap.lookup_erase]
  · by_cases hq : r = q
    · subst hq
      rw [Finmap.lookup_erase_ne hr, Finmap.lookup_insert, Finmap.lookup_insert]
    · rw [Finmap.lookup_erase_ne hr, Finmap.lookup_insert_of_ne _ hq,
        Finmap.lookup_insert_of_ne _ hq, Finmap.lookup_erase_ne hr]

theorem insert_erase_self (m : Polygons) (p b : Bytes) : (m.erase p).insert p b = m.insert p b := by
  apply Finmap.ext_lookup
  intro q
  by_cases hq : q = p
  · subst hq
    rw [Finmap.lookup_insert, Finmap.lookup_insert]
  · rw [Finmap.lookup_insert_of_ne _ hq, Finmap.lookup_insert_of_ne _ hq,
      Finmap.lookup_erase_ne hq]

/-- What an edit does to the other polygons does not depend on this one. -/
theorem Edits.map_erase (h : Edits env c i f) {x y : Option Polygons}
    (hxy : x.map (fun m => m.erase p) = y.map fun m => m.erase p) :
    (f x).map (fun m => m.erase p) = (f y).map fun m => m.erase p := by
  cases h with
  | create =>
      have hget : ∀ z : Option Polygons,
          (z.getD ∅).erase p = (z.map fun m => m.erase p).getD ∅ := by
        intro z
        cases z with
        | none => exact finmap_erase_of_notMem Finmap.notMem_empty
        | some m => rfl
      simp only [Option.map_some, hget, hxy]
  | delete => rfl
  | @put _ q b =>
      cases x <;> cases y <;> simp only [Option.map_some, Option.map_none, Option.some.injEq,
        reduceCtorEq] at hxy ⊢
      by_cases hq : q = p
      · subst hq
        rw [erase_insert_self, erase_insert_self, hxy]
      · rw [erase_insert_of_ne hq, erase_insert_of_ne hq, hxy]
  | @remove _ q =>
      cases x <;> cases y <;> simp only [Option.map_some, Option.map_none, Option.some.injEq,
        reduceCtorEq] at hxy ⊢
      rw [Finmap.erase_erase, hxy, Finmap.erase_erase]

theorem AgreeAway.keep (h : AgreeAway i p A A') (c : Command) :
    AgreeAway i p (edited env c A) (edited env c A') := by
  refine ⟨h.1.keep c, ?_⟩
  cases he : edit env c with
  | none => rw [edited_of_none he, edited_of_none he, h.2]
  | some e =>
      obtain ⟨j, f⟩ := e
      by_cases hij : i = j
      · subst hij
        rw [edited_of_some he, edited_of_some he, Function.update_self, Function.update_self]
        exact (edit_eq_some_iff.mp he).map_erase h.2
      · rw [(edit_eq_some_iff.mp he).edited_apply_of_ne hij,
          (edit_eq_some_iff.mp he).edited_apply_of_ne hij, h.2]

/-- A deletion of the index removes all differences within it. -/
theorem AgreeOff.merged (h : AgreeOff i A A') (hi : ¬ Refused i) :
    edited env ⟨.idel, [i]⟩ A = edited env ⟨.idel, [i]⟩ A' := by
  have he : Edits env ⟨.idel, [i]⟩ i fun _ => none := .delete hi
  funext j
  by_cases hj : j = i
  · subst hj
    rw [he.edited_eq, he.edited_eq, Function.update_self, Function.update_self]
  · rw [he.edited_apply_of_ne hj, he.edited_apply_of_ne hj, h j hj]

/-- An edit that does not look at a polygon removes all differences at it. -/
theorem AgreeAway.merged (h : AgreeAway i p A A') (hd : Edits env d i f)
    (hf : ∀ x, f x = f (x.map fun m => m.erase p)) : edited env d A = edited env d A' := by
  funext j
  by_cases hj : j = i
  · subst hj
    rw [hd.edited_eq, hd.edited_eq, Function.update_self, Function.update_self, hf, h.2, ← hf]
  · rw [hd.edited_apply_of_ne hj, hd.edited_apply_of_ne hj, h.1 j hj]

end RedisS2Geo.Store
