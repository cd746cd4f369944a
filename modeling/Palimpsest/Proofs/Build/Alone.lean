import Palimpsest.Proofs.Build.Dispatch

/-
  Builders that are driven alone.

  A visit is a list of callbacks.  A builder takes them up to
  the first one that it refuses.  Builders that answer every
  callback alike are driven alike.

  Main declarations:
    * `Visit.calls`
    * `Visit.callbacks_eq_calls`
    * `Visit.Takes`
    * `Visit.driveEach_of_takes`
    * `Simulates`
    * `Simulates.driveEach`
-/

namespace Palimpsest

------------------------------------------------------------
-- The Callbacks That A Builder Takes
------------------------------------------------------------

namespace Visit

/- The callbacks of a visit, in order. -/
def calls : Visit → List Callback
| .package p => [.module p]
| .classifier c kind => [.classifier c kind]
| .property p => [.property p]
| .operation o =>
    o.parameters.map .parameter ++
      o.result.toList.map .parameter ++ [.method o]
| .association c a => a.calls c
| .leave c => [.leave c]

/- No callback of a visit is refused. -/
theorem callbacks_eq_calls (v : Visit) :
    v.callbacks = v.calls.map .ok := by
  cases v with
  | operation o =>
      simp [callbacks, calls, Function.comp_def]
  | association classifier a =>
      exact callbacks_association classifier a
  | _ =>
      rfl

variable {β : Type} [Builder β]

/- A builder that is driven alone takes all callbacks. -/
def Takes
    (calls : List Callback)
    (b : β) : Prop :=
  (driveAll (calls.map .ok) b).1 = .ok ()

/- Nothing is always taken. -/
theorem takes_nil (b : β) : Takes [] b :=
  rfl

/- A first callback is taken, and then the others. -/
theorem takes_cons
    (k : Callback)
    (calls : List Callback)
    (b : β) :
    Takes (k :: calls) b ↔
      (Builder.receive k b).1 = .ok () ∧
        Takes calls (Builder.receive k b).2 := by
  unfold Takes
  rw [List.map_cons, driveAll]
  cases Builder.receive k b with
  | mk answer after =>
      cases answer with
      | error e => simp
      | ok _ => simp

/- The state of a builder after a first callback. -/
theorem told_cons
    (k : Callback)
    (calls : List Callback)
    (b : β) :
    told (k :: calls) b =
      told calls (Builder.receive k b).2 :=
  rfl

/- The state of a builder after callbacks and others. -/
theorem told_append
    (first second : List Callback)
    (b : β) :
    told (first ++ second) b = told second (told first b) := by
  simp [told, List.foldl_append]

/- Driving goes on behind callbacks that are taken. -/
theorem driveAll_append_of_takes
    {first : List Callback}
    {b : β}
    (hTakes : Takes first b)
    (second : List Callback) :
    driveAll ((first ++ second).map .ok) b =
      driveAll (second.map .ok) (told first b) := by
  induction first generalizing b with
  | nil =>
      rfl
  | cons k first ih =>
      rw [takes_cons] at hTakes
      have hRest := ih hTakes.2
      have hAnswer := hTakes.1
      rw [List.cons_append, List.map_cons, driveAll, told_cons]
      cases hReceive : Builder.receive k b with
      | mk answer after =>
          rw [hReceive] at hAnswer hRest
          cases hAnswer
          exact hRest

/- A builder that takes all callbacks is told all of them. -/
theorem driveAll_of_takes
    {calls : List Callback}
    {b : β}
    (hTakes : Takes calls b) :
    driveAll (calls.map .ok) b = (.ok (), told calls b) := by
  have hAll := driveAll_append_of_takes hTakes []
  rwa [List.append_nil] at hAll

/- Callbacks are taken in two parts. -/
theorem takes_append
    (first second : List Callback)
    (b : β) :
    Takes (first ++ second) b ↔
      Takes first b ∧ Takes second (told first b) := by
  induction first generalizing b with
  | nil =>
      simp [takes_nil, told]
  | cons k first ih =>
      rw [List.cons_append, takes_cons, takes_cons, told_cons,
        ih, and_assoc]

/- A builder alone, through visits whose callbacks it takes. -/
theorem driveEach_of_takes
    {visits : List Visit}
    {b : β}
    (hTakes : Takes (visits.flatMap calls) b) :
    driveEach visits b =
      (visits.map (fun _ => .ok ()),
        told (visits.flatMap calls) b) := by
  induction visits generalizing b with
  | nil =>
      rfl
  | cons v visits ih =>
      rw [List.flatMap_cons, takes_append] at hTakes
      have hVisit : v.drive b = (.ok (), told v.calls b) := by
        rw [drive, callbacks_eq_calls]
        exact driveAll_of_takes hTakes.1
      simp only [driveEach, hVisit, ih hTakes.2,
        List.map_cons, List.flatMap_cons, told_append]

end Visit

------------------------------------------------------------
-- Builders That Answer Alike
------------------------------------------------------------

/-
  Related builders answer every callback in the same way and
  stay related.
-/
def Simulates
    {β γ : Type}
    [Builder β]
    [Builder γ]
    (Alike : β → γ → Prop) : Prop :=
  ∀ (k : Callback) (b : β) (c : γ), Alike b c →
    (Builder.receive k b).1 = (Builder.receive k c).1 ∧
      Alike (Builder.receive k b).2 (Builder.receive k c).2

namespace Simulates

variable {β γ : Type} [Builder β] [Builder γ]
variable {Alike : β → γ → Prop}

/- Related builders are driven through callbacks alike. -/
theorem driveAll
    (hAlike : Simulates Alike)
    (calls : List (Except BuildError Callback))
    {b : β}
    {c : γ}
    (h : Alike b c) :
    (Visit.driveAll calls b).1 = (Visit.driveAll calls c).1 ∧
      Alike (Visit.driveAll calls b).2
        (Visit.driveAll calls c).2 := by
  induction calls generalizing b c with
  | nil =>
      exact ⟨rfl, h⟩
  | cons call calls ih =>
      cases call with
      | error e =>
          exact ⟨rfl, h⟩
      | ok k =>
          have hStep := hAlike k b c h
          rw [Visit.driveAll, Visit.driveAll]
          cases hB : Builder.receive k b with
          | mk answer b' =>
              cases hC : Builder.receive k c with
              | mk answer' c' =>
                  rw [hB, hC] at hStep
                  cases hStep.1
                  cases answer with
                  | error e => exact hStep
                  | ok _ => exact ih hStep.2

/- Related builders are driven through visits alike. -/
theorem driveEach
    (hAlike : Simulates Alike)
    (visits : List Visit)
    {b : β}
    {c : γ}
    (h : Alike b c) :
    (Visit.driveEach visits b).1 =
        (Visit.driveEach visits c).1 ∧
      Alike (Visit.driveEach visits b).2
        (Visit.driveEach visits c).2 := by
  induction visits generalizing b c with
  | nil =>
      exact ⟨rfl, h⟩
  | cons v visits ih =>
      have hVisit := hAlike.driveAll v.callbacks h
      have hRest := ih hVisit.2
      exact ⟨by
        simp only [Visit.driveEach, Visit.drive, hVisit.1,
          hRest.1], hRest.2⟩

end Simulates

end Palimpsest
