import Palimpsest.Proofs.Build.Watch

/-
  A composite is its builders side by side.

  As long as no builder fails, every callback goes to all
  builders, one place after another, and each builder is told
  what it would be told alone.  The first failure ends the
  visit at once.

  Main declarations:
    * `Watched.handOutRow_of_taken`
    * `Watched.driveAll_of_takes`
    * `EarlyEnd`
    * `EarlyEnd.takes_or_ends`
    * `Watched.driveAll_of_earlyEnd`
    * `Receipt.received_rounds`
    * `Composite.runs_side_by_side`
-/

namespace Palimpsest

variable {β : Type} [Builder β]

------------------------------------------------------------
-- Rounds Without Failure
------------------------------------------------------------

namespace Placed

/- A builder at a place is the builder, as far as answers go. -/
theorem simulates_builder :
    Simulates (fun (b : Placed β) (c : β) => b.builder = c) := by
  intro k b c hSame
  subst hSame
  exact ⟨rfl, rfl⟩

/- What a builder takes does not depend on its place. -/
theorem takes_iff
    (calls : List Callback)
    (b : Placed β) :
    Visit.Takes calls b ↔ Visit.Takes calls b.builder := by
  unfold Visit.Takes
  rw [(simulates_builder.driveAll (calls.map .ok) rfl).1]

/- A builder stays at its place. -/
theorem told_eq
    (calls : List Callback)
    (b : Placed β) :
    Visit.told calls b =
      ⟨b.place, Visit.told calls b.builder⟩ := by
  induction calls generalizing b with
  | nil =>
      rfl
  | cons k calls ih =>
      rw [Visit.told_cons, ih]
      rfl

end Placed

namespace Watched

/- The log of a callback that all builders in a row take. -/
def row
    (bs : List (Placed β))
    (k : Callback) : List Receipt :=
  bs.map (fun b => ⟨b.place, k⟩)

/- The places in a row stay. -/
theorem row_map_told
    (calls : List Callback)
    (bs : List (Placed β)) :
    row (bs.map (Visit.told calls)) = row bs := by
  funext k
  simp [row, Placed.told_eq]

/- A callback that all builders in a row take. -/
theorem handOutRow_of_taken
    {k : Callback}
    {bs : List (Placed β)}
    (hTaken : ∀ b ∈ bs, (Builder.receive k b).1 = .ok ())
    (log : List Receipt) :
    Composite.handOutRow (note k) bs log =
      (.ok (), bs.map (Visit.told [k]), log ++ row bs k) := by
  induction bs generalizing log with
  | nil =>
      simp [Composite.handOutRow, row]
  | cons b bs ih =>
      rw [List.forall_mem_cons] at hTaken
      rw [Composite.handOutRow]
      simp only [note, hTaken.1, ih hTaken.2]
      simp [row, Visit.told]

/- A callback that a builder in a row is the first to refuse. -/
theorem handOutRow_of_failure
    {k : Callback}
    {front : List (Placed β)}
    {b : Placed β}
    {e : BuildError}
    (hFront : ∀ b ∈ front, (Builder.receive k b).1 = .ok ())
    (hFails : (Builder.receive k b).1 = .error e)
    (back : List (Placed β))
    (log : List Receipt) :
    Composite.handOutRow (note k) (front ++ b :: back) log =
      (.error e,
        front.map (Visit.told [k]) ++ Visit.told [k] b :: back,
        log ++ row (front ++ [b]) k) := by
  rw [Composite.handOutRow_append, handOutRow_of_taken hFront]
  simp only [Composite.handOutRow, note, hFails]
  simp [row, Visit.told]

/-
  Callbacks that all builders take go to all of them, one
  place after another.
-/
theorem driveAll_of_takes
    {calls : List Callback}
    {w : Watched β}
    (hTakes :
      ∀ b ∈ w.composite.builders, Visit.Takes calls b)
    (rest : List Callback) :
    ∃ w' : Watched β,
      Visit.driveAll ((calls ++ rest).map .ok) w =
          Visit.driveAll (rest.map .ok) w' ∧
        w'.composite.builders =
          w.composite.builders.map (Visit.told calls) ∧
        w'.log =
          w.log ++ calls.flatMap (row w.composite.builders) := by
  induction calls generalizing w with
  | nil =>
      refine ⟨w, rfl, ?_, ?_⟩
      · exact (List.map_id _).symm
      · simp
  | cons k calls ih =>
      have hTaken :
          ∀ b ∈ w.composite.builders,
            (Builder.receive k b).1 = .ok () :=
        fun b hb => ((Visit.takes_cons _ _ _).mp (hTakes b hb)).1
      have hRow := receive_row k w
      rw [handOutRow_of_taken hTaken] at hRow
      simp only [Prod.mk.injEq] at hRow
      rcases hRow with ⟨hAnswer, hBuilders, hLog⟩
      cases hReceive : Builder.receive k w with
      | mk answer w' =>
          rw [hReceive] at hAnswer hBuilders hLog
          dsimp only at hAnswer hBuilders hLog
          have hLater :
              ∀ b ∈ w'.composite.builders,
                Visit.Takes calls b := by
            intro b hb
            rw [← hBuilders] at hb
            rcases List.mem_map.mp hb with ⟨b', hb', rfl⟩
            exact ((Visit.takes_cons _ _ _).mp
              (hTakes b' hb')).2
          rcases ih hLater with ⟨last, hDrive, hLast, hEnd⟩
          refine ⟨last, ?_, ?_, ?_⟩
          · rw [List.cons_append, List.map_cons,
              Visit.driveAll, hReceive, ← hAnswer]
            exact hDrive
          · rw [hLast, ← hBuilders, List.map_map]
            rfl
          · rw [hEnd, ← hLog, ← hBuilders, row_map_told,
              List.flatMap_cons, List.append_assoc]

end Watched

------------------------------------------------------------
-- The First Failure
------------------------------------------------------------

/-
  How a visit ends early: on a callback after others, at a
  builder between others, with a fault.
-/
structure EarlyEnd (β : Type) where
  before : List Callback
  callback : Callback
  front : List β
  failing : β
  back : List β
  cause : BuildError

namespace EarlyEnd

/-
  The builder is the first to fail.  All builders take the
  callbacks before, and those in front of it take the callback
  as well, each on its own.
-/
structure Ends
    (x : EarlyEnd β)
    (builders : List β)
    (calls : List Callback) : Prop where
  calls_eq :
    ∃ rest, calls = x.before ++ x.callback :: rest
  builders_eq : builders = x.front ++ x.failing :: x.back
  before_taken : ∀ b ∈ builders, Visit.Takes x.before b
  front_takes :
    ∀ b ∈ x.front,
      (Builder.receive x.callback
        (Visit.told x.before b)).1 = .ok ()
  fails :
    (Builder.receive x.callback
      (Visit.told x.before x.failing)).1 = .error x.cause

/- Builders all take a callback, or one is the first to fail. -/
theorem taken_or_fails
    (k : Callback)
    (bs : List β) :
    (∀ b ∈ bs, (Builder.receive k b).1 = .ok ()) ∨
      ∃ front b back e,
        bs = front ++ b :: back ∧
          (∀ b ∈ front, (Builder.receive k b).1 = .ok ()) ∧
          (Builder.receive k b).1 = .error e := by
  induction bs with
  | nil =>
      exact .inl (fun b hb => (List.not_mem_nil hb).elim)
  | cons b bs ih =>
      cases hAnswer : (Builder.receive k b).1 with
      | error e =>
          exact .inr ⟨[], b, bs, e, rfl,
            fun b hb => (List.not_mem_nil hb).elim, hAnswer⟩
      | ok _ =>
          rcases ih with hAll | ⟨front, c, back, e, h⟩
          · exact .inl (List.forall_mem_cons.mpr
              ⟨hAnswer, hAll⟩)
          · exact .inr ⟨b :: front, c, back, e,
              congrArg (b :: ·) h.1,
              List.forall_mem_cons.mpr ⟨hAnswer, h.2.1⟩,
              h.2.2⟩

/- Builders take all callbacks, or one is the first to fail. -/
theorem takes_or_ends
    (calls : List Callback)
    (bs : List β) :
    (∀ b ∈ bs, Visit.Takes calls b) ∨
      ∃ x : EarlyEnd β, x.Ends bs calls := by
  induction calls generalizing bs with
  | nil =>
      exact .inl (fun b _ => Visit.takes_nil b)
  | cons k calls ih =>
      rcases taken_or_fails k bs with
        hAll | ⟨front, b, back, e, hSplit, hFront, hFails⟩
      · rcases ih (bs.map (Visit.told [k])) with
          hRest | ⟨x, hEnds⟩
        · refine .inl (fun b hb => ?_)
          exact (Visit.takes_cons _ _ _).mpr ⟨hAll b hb,
            hRest _ (List.mem_map_of_mem hb)⟩
        · -- The later end, seen before the first callback.
          rcases hEnds with
            ⟨⟨rest, hCalls⟩, hBuilders, hBefore, hFront, hFails⟩
          rcases List.map_eq_append_iff.mp hBuilders with
            ⟨front, others, rfl, hMapFront, hOthers⟩
          rcases List.map_eq_cons_iff.mp hOthers with
            ⟨b, back, rfl, hFailing, _⟩
          refine .inr ⟨⟨k :: x.before, x.callback, front, b,
            back, x.cause⟩, ⟨rest, ?_⟩, rfl, ?_, ?_, ?_⟩
          · exact congrArg (k :: ·) hCalls
          · intro c hc
            exact (Visit.takes_cons _ _ _).mpr ⟨hAll c hc,
              hBefore _ (List.mem_map_of_mem hc)⟩
          · intro c hc
            refine hFront (Visit.told [k] c) ?_
            rw [← hMapFront]
            exact List.mem_map_of_mem hc
          · rw [← hFailing] at hFails
            exact hFails
      · exact .inr ⟨⟨[], k, front, b, back, e⟩,
          ⟨calls, rfl⟩, hSplit,
          fun b _ => Visit.takes_nil b, hFront, hFails⟩

end EarlyEnd

/-
  Up to the first failure all builders are told everything.
  The failing callback reaches the failing builder and those
  in front of it, and nothing is handed out after that.
-/
theorem Watched.driveAll_of_earlyEnd
    {x : EarlyEnd (Placed β)}
    {w : Watched β}
    {calls : List Callback}
    (hEnds : x.Ends w.composite.builders calls) :
    (Visit.driveAll (calls.map .ok) w).1 = .error x.cause ∧
      (Visit.driveAll (calls.map .ok) w).2.composite.builders =
        x.front.map (Visit.told (x.before ++ [x.callback])) ++
          Visit.told (x.before ++ [x.callback]) x.failing ::
            x.back.map (Visit.told x.before) ∧
      (Visit.driveAll (calls.map .ok) w).2.log =
        w.log ++ x.before.flatMap (row w.composite.builders) ++
          row (x.front ++ [x.failing]) x.callback := by
  rcases hEnds with
    ⟨⟨rest, hCalls⟩, hBuilders, hBefore, hFront, hFails⟩
  rcases driveAll_of_takes hBefore (x.callback :: rest) with
    ⟨w', hDrive, hLater, hLog⟩
  have hToldFront :
      ∀ b ∈ x.front.map (Visit.told x.before),
        (Builder.receive x.callback b).1 = .ok () := by
    intro b hb
    rcases List.mem_map.mp hb with ⟨c, hc, rfl⟩
    exact hFront c hc
  have hRow := receive_row x.callback w'
  rw [hLater, hBuilders, List.map_append, List.map_cons,
    handOutRow_of_failure hToldFront hFails] at hRow
  simp only [Prod.mk.injEq] at hRow
  have hStop :
      Visit.driveAll ((x.callback :: rest).map .ok) w' =
        (.error x.cause, (Builder.receive x.callback w').2) := by
    rw [List.map_cons, Visit.driveAll]
    cases hReceive : Builder.receive x.callback w' with
    | mk answer after =>
        rw [hReceive] at hRow
        dsimp only at hRow
        rw [← hRow.1]
  rw [hCalls, hDrive, hStop]
  refine ⟨rfl, ?_, ?_⟩
  · rw [← hRow.2.1, List.map_map]
    simp [Visit.told_append]
  · have hPlaces :
        x.front.map (Visit.told x.before) ++
            [Visit.told x.before x.failing] =
          (x.front ++ [x.failing]).map (Visit.told x.before) := by
      rw [List.map_append]
      rfl
    rw [← hRow.2.2, hLog, hPlaces, row_map_told, hBuilders]

------------------------------------------------------------
-- The Places Of A Watched Composite
------------------------------------------------------------

namespace Receipt

/- A callback that reaches so many builders, in order. -/
def round
    (count : Nat)
    (k : Callback) : List Receipt :=
  (List.range count).map (fun place => ⟨place, k⟩)

/- What the builder at a place was handed, in order. -/
def received
    (place : Nat)
    (log : List Receipt) : List Callback :=
  log.filterMap (fun r =>
    if r.place = place then some r.callback else none)

/- In a round every place is served once. -/
theorem received_round
    {place count : Nat}
    (hPlace : place < count)
    (k : Callback) :
    received place (round count k) = [k] := by
  induction count with
  | zero =>
      omega
  | succ count ih =>
      have hRound :
          round (count + 1) k = round count k ++ [⟨count, k⟩] := by
        simp [round, List.range_succ]
      by_cases hLast : place = count
      · subst hLast
        have hNone : received place (round place k) = [] := by
          simp [received, round, List.filterMap_eq_nil_iff]
          omega
        simp [hRound, received, List.filterMap_append]
        simpa [received] using hNone
      · have hOne := ih (by omega)
        rw [hRound, received, List.filterMap_append]
        rw [received] at hOne
        rw [hOne]
        simp [Ne.symm hLast]

/- Over rounds every place is served every callback once. -/
theorem received_rounds
    {place count : Nat}
    (hPlace : place < count)
    (calls : List Callback) :
    received place (calls.flatMap (round count)) = calls := by
  induction calls with
  | nil =>
      rfl
  | cons k calls ih =>
      have hOne := received_round hPlace k
      rw [received] at ih hOne
      rw [List.flatMap_cons, received, List.filterMap_append,
        hOne, ih]
      rfl

end Receipt

namespace Watched

/- Builders in a row, at their places from a first one on. -/
def seats
    (n : Nat)
    (bs : List β) : List (Placed β) :=
  (bs.zipIdx n).map (fun b => ⟨b.2, b.1⟩)

/- The builders of a composite under watch. -/
omit [Builder β] in
theorem builders_watch (c : Composite β) :
    c.watch.composite.builders = seats 0 c.builders :=
  Composite.builders_placedFrom 0 c

/- The builders at their places, without the places. -/
omit [Builder β] in
theorem map_builder_seats
    (n : Nat)
    (bs : List β) :
    (seats n bs).map Placed.builder = bs := by
  rw [seats, List.map_map]
  exact List.zipIdx_map_fst n bs

/- Two rows at their places, one behind the other. -/
omit [Builder β] in
theorem seats_append
    (n : Nat)
    (first second : List β) :
    seats n (first ++ second) =
      seats n first ++ seats (n + first.length) second := by
  simp [seats, List.zipIdx_append]

/- All places are served in a round. -/
omit [Builder β] in
theorem row_seats (bs : List β) :
    row (seats 0 bs) = Receipt.round bs.length := by
  funext k
  have hPlaces : (bs.zipIdx 0).map Prod.snd =
      List.range bs.length := by
    rw [List.zipIdx_map_snd, List.range_eq_range']
  rw [row, seats, List.map_map, Receipt.round, ← hPlaces,
    List.map_map]
  rfl

/- What all builders take, they take at their places. -/
theorem takes_seats
    {calls : List Callback}
    {bs : List β}
    (hTakes : ∀ b ∈ bs, Visit.Takes calls b)
    (n : Nat) :
    ∀ b ∈ seats n bs, Visit.Takes calls b := by
  intro b hb
  rw [Placed.takes_iff]
  refine hTakes b.builder ?_
  rw [← map_builder_seats n bs]
  exact List.mem_map_of_mem hb

/- The states at all places, without the places. -/
theorem map_builder_told
    (calls : List Callback)
    (bs : List (Placed β)) :
    (bs.map (Visit.told calls)).map Placed.builder =
      (bs.map Placed.builder).map (Visit.told calls) := by
  simp [Placed.told_eq, Function.comp_def]

/-
  Builders that take the callbacks of all visits are told all
  of them, one place after another.
-/
theorem driveEach_of_takes
    {visits : List Visit}
    {w : Watched β}
    (hTakes :
      ∀ b ∈ w.composite.builders,
        Visit.Takes (visits.flatMap Visit.calls) b) :
    (Visit.driveEach visits w).2.composite.builders =
        w.composite.builders.map
          (Visit.told (visits.flatMap Visit.calls)) ∧
      (Visit.driveEach visits w).2.log =
        w.log ++ (visits.flatMap Visit.calls).flatMap
          (row w.composite.builders) := by
  induction visits generalizing w with
  | nil =>
      refine ⟨(List.map_id _).symm, ?_⟩
      simp [Visit.driveEach]
  | cons v visits ih =>
      simp only [List.flatMap_cons, Visit.takes_append] at hTakes
      rcases driveAll_of_takes (fun b hb => (hTakes b hb).1) []
        with ⟨w', hDrive, hBuilders, hLog⟩
      rw [List.append_nil, ← Visit.callbacks_eq_calls] at hDrive
      have hLater :
          ∀ b ∈ w'.composite.builders,
            Visit.Takes (visits.flatMap Visit.calls) b := by
        intro b hb
        rw [hBuilders] at hb
        rcases List.mem_map.mp hb with ⟨c, hc, rfl⟩
        exact (hTakes c hc).2
      have hRest := ih hLater
      have hState :
          (Visit.driveEach (v :: visits) w).2 =
            (Visit.driveEach visits w').2 := by
        rw [Visit.driveEach, Visit.drive, hDrive]
        rfl
      rw [hState, hRest.1, hRest.2, hBuilders, hLog,
        row_map_told, List.map_map, List.flatMap_cons,
        List.flatMap_append, List.append_assoc]
      refine ⟨?_, rfl⟩
      refine List.map_congr_left (fun b _ => ?_)
      exact (Visit.told_append _ _ b).symm

/- Visits that all go well are taken by all builders. -/
theorem takes_of_driveEach
    {visits : List Visit}
    {w : Watched β}
    (hAnswers :
      ∀ answer ∈ (Visit.driveEach visits w).1,
        answer = .ok ()) :
    ∀ b ∈ w.composite.builders,
      Visit.Takes (visits.flatMap Visit.calls) b := by
  induction visits generalizing w with
  | nil =>
      exact fun b _ => Visit.takes_nil b
  | cons v visits ih =>
      have hSplit :
          (Visit.driveEach (v :: visits) w).1 =
            (v.drive w).1 ::
              (Visit.driveEach visits (v.drive w).2).1 :=
        rfl
      rw [hSplit, List.forall_mem_cons] at hAnswers
      rw [Visit.drive, Visit.callbacks_eq_calls] at hAnswers
      rcases EarlyEnd.takes_or_ends v.calls
          w.composite.builders with
        hTakes | ⟨x, hEnds⟩
      · rcases driveAll_of_takes hTakes [] with
          ⟨w', hDrive, hBuilders, _⟩
        rw [List.append_nil] at hDrive
        rw [hDrive] at hAnswers
        have hRest := ih hAnswers.2
        intro b hb
        rw [List.flatMap_cons, Visit.takes_append]
        refine ⟨hTakes b hb, hRest _ ?_⟩
        have hState :
            (Visit.driveAll (([] : List Callback).map .ok)
              w').2.composite.builders =
                w'.composite.builders :=
          rfl
        rw [hState, hBuilders]
        exact List.mem_map_of_mem hb
      · have hError := (driveAll_of_earlyEnd hEnds).1
        rw [hError] at hAnswers
        cases hAnswers.1

end Watched

/- An early end among builders at their places. -/
def EarlyEnd.seated (x : EarlyEnd β) : EarlyEnd (Placed β) where
  before := x.before
  callback := x.callback
  front := Watched.seats 0 x.front
  failing := ⟨x.front.length, x.failing⟩
  back := Watched.seats (x.front.length + 1) x.back
  cause := x.cause

/- A visit ends in the same way when builders have places. -/
theorem EarlyEnd.Ends.seated
    {x : EarlyEnd β}
    {bs : List β}
    {calls : List Callback}
    (hEnds : x.Ends bs calls) :
    x.seated.Ends (Watched.seats 0 bs) calls := by
  refine ⟨hEnds.calls_eq, ?_,
    Watched.takes_seats hEnds.before_taken 0, ?_, ?_⟩
  · rw [hEnds.builders_eq, Watched.seats_append, Nat.zero_add]
    rfl
  · intro b hb
    have hBuilder : b.builder ∈ x.front := by
      rw [← Watched.map_builder_seats 0 x.front]
      exact List.mem_map_of_mem hb
    show (Builder.receive x.callback
      (Visit.told x.before b)).1 = .ok ()
    rw [Placed.told_eq]
    exact hEnds.front_takes b.builder hBuilder
  · show (Builder.receive x.callback
      (Visit.told x.before x.seated.failing)).1 = _
    rw [Placed.told_eq]
    exact hEnds.fails

------------------------------------------------------------
-- Builders Side By Side
------------------------------------------------------------

namespace Composite

open Visit (drive driveEach told Takes)

/- What the builders of a composite are handed in visits. -/
def log
    (c : Composite β)
    (visits : List Visit) : List Receipt :=
  (driveEach visits c.watch).2.log

/- The builders of a composite are the ones under watch. -/
omit [Builder β] in
theorem builders_watched (c : Composite β) :
    c.watch.builders = c.builders := by
  rw [Watched.builders, Watched.builders_watch,
    Watched.map_builder_seats]

/- Watching a composite changes nothing. -/
theorem driveEach_watch
    (c : Composite β)
    (visits : List Visit) :
    (driveEach visits c.watch).1 = (driveEach visits c).1 ∧
      (driveEach visits c.watch).2.builders =
        (driveEach visits c).2.builders := by
  have hStart : c.watch.builders = c.builders := by
    rw [Watched.builders, Watched.builders_watch,
      Watched.map_builder_seats]
  exact Watched.simulates_watched.driveEach visits hStart

/- A composite does the same without its nesting. -/
theorem driveEach_flat
    (c : Composite β)
    (visits : List Visit) :
    (driveEach visits c.flat).1 = (driveEach visits c).1 ∧
      (driveEach visits c.flat).2.builders =
        (driveEach visits c).2.builders ∧
      c.flat.log visits = c.log visits := by
  have hPlain := simulates_of_builders.driveEach visits
    (builders_flat c)
  have hSeats :
      c.flat.watch.composite.builders =
        c.watch.composite.builders := by
    rw [Watched.builders_watch, Watched.builders_watch,
      builders_flat]
  have hWatched := Watched.simulates_of_builders.driveEach
    visits ⟨hSeats, rfl⟩
  exact ⟨hPlain.1, hPlain.2, hWatched.2.2⟩

/- Visits that all go well are taken by each builder alone. -/
theorem takes_of_driveEach
    {c : Composite β}
    {visits : List Visit}
    (hAnswers :
      ∀ answer ∈ (driveEach visits c).1, answer = .ok ()) :
    ∀ b ∈ c.builders, Takes (visits.flatMap Visit.calls) b := by
  rw [← (driveEach_watch c visits).1] at hAnswers
  have hSeats := Watched.takes_of_driveEach hAnswers
  rw [Watched.builders_watch] at hSeats
  intro b hb
  rw [← Watched.map_builder_seats 0 c.builders] at hb
  rcases List.mem_map.mp hb with ⟨seat, hSeat, rfl⟩
  exact (Placed.takes_iff _ _).mp (hSeats seat hSeat)

/- What a composite does when its builders take everything. -/
theorem driveEach_of_takes
    {c : Composite β}
    {visits : List Visit}
    (hTakes :
      ∀ b ∈ c.builders, Takes (visits.flatMap Visit.calls) b) :
    (driveEach visits c).2.builders =
        c.builders.map (told (visits.flatMap Visit.calls)) ∧
      c.log visits =
        (visits.flatMap Visit.calls).flatMap
          (Receipt.round c.builders.length) := by
  have hSeats := Watched.takes_seats hTakes 0
  rw [← Watched.builders_watch] at hSeats
  have hWatched := Watched.driveEach_of_takes hSeats
  constructor
  · rw [← (driveEach_watch c visits).2, Watched.builders,
      hWatched.1, Watched.map_builder_told,
      Watched.builders_watch, Watched.map_builder_seats]
  · rw [log, hWatched.2, Watched.builders_watch,
      Watched.row_seats]
    rfl

/- A visit goes well when all builders take its callbacks. -/
theorem drive_of_takes
    {c : Composite β}
    {v : Visit}
    (hTakes : ∀ b ∈ c.builders, Takes v.calls b) :
    (v.drive c).1 = .ok () := by
  have hSeats := Watched.takes_seats hTakes 0
  rw [← Watched.builders_watch] at hSeats
  rcases Watched.driveAll_of_takes hSeats [] with
    ⟨w, hDrive, _, _⟩
  rw [List.append_nil, ← Visit.callbacks_eq_calls] at hDrive
  have hPlain := Watched.simulates_watched.driveAll v.callbacks
    (builders_watched c)
  rw [hDrive] at hPlain
  exact hPlain.1.symm

/- What a composite does when a builder is the first to fail. -/
theorem drive_of_earlyEnd
    {c : Composite β}
    {v : Visit}
    {x : EarlyEnd β}
    (hEnds : x.Ends c.builders v.calls) :
    (v.drive c).1 = .error x.cause ∧
      (v.drive c).2.builders =
        x.front.map (told (x.before ++ [x.callback])) ++
          told (x.before ++ [x.callback]) x.failing ::
            x.back.map (told x.before) ∧
      c.log [v] =
        x.before.flatMap (Receipt.round c.builders.length) ++
          Receipt.round (x.front.length + 1) x.callback := by
  have hSeated := hEnds.seated
  rw [← Watched.builders_watch] at hSeated
  have hWatched := Watched.driveAll_of_earlyEnd hSeated
  rw [← Visit.callbacks_eq_calls] at hWatched
  have hPlain := Watched.simulates_watched.driveAll v.callbacks
    (builders_watched c)
  have hReached :
      Watched.row
          (x.seated.front ++ [x.seated.failing]) x.callback =
        Receipt.round (x.front.length + 1) x.callback := by
    have hSeats :
        x.seated.front ++ [x.seated.failing] =
          Watched.seats 0 (x.front ++ [x.failing]) := by
      rw [Watched.seats_append, Nat.zero_add]
      rfl
    rw [hSeats, Watched.row_seats, List.length_append]
    rfl
  refine ⟨hPlain.1.symm.trans hWatched.1, ?_, ?_⟩
  · refine hPlain.2.symm.trans ?_
    rw [Watched.builders, hWatched.2.1, List.map_append,
      List.map_cons, Watched.map_builder_told,
      Watched.map_builder_told, Placed.told_eq]
    show ((Watched.seats 0 x.front).map Placed.builder).map _ ++
      _ :: ((Watched.seats _ x.back).map Placed.builder).map _ =
        _
    rw [Watched.map_builder_seats, Watched.map_builder_seats]
    rfl
  · rw [log]
    refine hWatched.2.2.trans ?_
    rw [Watched.builders_watch, Watched.row_seats]
    exact congrArg (_ ++ ·) hReached

/-
  A composite is its builders side by side.

  Nesting does not matter, and watching changes nothing.  As
  long as all visits go well, every callback of every visit is
  handed to all builders, in the order of registration, and
  each builder receives what it receives alone, answers as
  well as alone and ends as it ends alone.  In a single visit,
  if a builder is the first to fail on a callback, the visit
  answers with its fault; all builders received the callbacks
  before, it and those in front of it received this one, and
  nobody receives any other.  No visit fails otherwise.
-/
theorem runs_side_by_side (c : Composite β) :
    (∀ visits,
      (driveEach visits c.flat).1 = (driveEach visits c).1 ∧
        (driveEach visits c.flat).2.builders =
          (driveEach visits c).2.builders ∧
        c.flat.log visits = c.log visits) ∧
      (∀ visits,
        (driveEach visits c.watch).1 =
            (driveEach visits c).1 ∧
          (driveEach visits c.watch).2.builders =
            (driveEach visits c).2.builders) ∧
      (∀ visits,
        (∀ answer ∈ (driveEach visits c).1, answer = .ok ()) →
          c.log visits =
              (visits.flatMap Visit.calls).flatMap
                (Receipt.round c.builders.length) ∧
            ∀ place b, c.builders[place]? = some b →
              Receipt.received place (c.log visits) =
                  Receipt.received 0
                    ((Composite.single b).log visits) ∧
                (∀ answer ∈ (driveEach visits b).1,
                  answer = .ok ()) ∧
                (driveEach visits c).2.builders[place]? =
                  some (driveEach visits b).2) ∧
      (∀ (v : Visit) (x : EarlyEnd β),
        x.Ends c.builders v.calls →
          (v.drive c).1 = .error x.cause ∧
            (v.drive c).2.builders =
              x.front.map (told (x.before ++ [x.callback])) ++
                told (x.before ++ [x.callback]) x.failing ::
                  x.back.map (told x.before) ∧
            c.log [v] =
              x.before.flatMap
                  (Receipt.round c.builders.length) ++
                Receipt.round (x.front.length + 1)
                  x.callback) ∧
      ∀ (v : Visit) (e : BuildError),
        (v.drive c).1 = .error e ↔
          ∃ x : EarlyEnd β,
            x.Ends c.builders v.calls ∧ x.cause = e := by
  refine ⟨driveEach_flat c, driveEach_watch c, ?_,
    fun v x hEnds => drive_of_earlyEnd hEnds, ?_⟩
  · intro visits hAnswers
    have hTakes := takes_of_driveEach hAnswers
    have hAll := driveEach_of_takes hTakes
    refine ⟨hAll.2, fun place b hPlace => ?_⟩
    have hBuilder := hTakes b (List.mem_of_getElem? hPlace)
    have hAlone := Visit.driveEach_of_takes hBuilder
    have hOnly : ∀ d ∈ (Composite.single b).builders,
        Takes (visits.flatMap Visit.calls) d :=
      List.forall_mem_singleton.mpr hBuilder
    have hBound : place < c.builders.length :=
      (List.getElem?_eq_some_iff.mp hPlace).1
    refine ⟨?_, ?_, ?_⟩
    · rw [hAll.2, (driveEach_of_takes hOnly).2,
        Receipt.received_rounds hBound]
      exact (Receipt.received_rounds Nat.one_pos _).symm
    · rw [hAlone]
      intro answer hAnswer
      rcases List.mem_map.mp hAnswer with ⟨_, _, rfl⟩
      rfl
    · rw [hAll.1, hAlone, List.getElem?_map, hPlace]
      rfl
  · intro v e
    constructor
    · intro hError
      rcases EarlyEnd.takes_or_ends v.calls c.builders with
        hTakes | ⟨x, hEnds⟩
      · rw [drive_of_takes hTakes] at hError
        cases hError
      · refine ⟨x, hEnds, ?_⟩
        have hCause := (drive_of_earlyEnd hEnds).1
        rw [hError] at hCause
        exact (Except.error.inj hCause).symm
    · rintro ⟨x, hEnds, rfl⟩
      exact (drive_of_earlyEnd hEnds).1

/- A builder that refuses one callback and writes down all. -/
structure Clerk where
  refused : String
  lines : List String
deriving DecidableEq

instance : Builder Clerk :=
  ⟨fun k clerk =>
    (if k.line = clerk.refused then
      .error (.builder "clerk" k.line)
    else
      .ok (),
      { clerk with lines := clerk.lines ++ [k.line] })⟩

/- Three clerks, the last two in a composite of their own. -/
def office : Composite Clerk :=
  .several [.single ⟨"", []⟩,
    .several [.single ⟨"method total", []⟩,
      .single ⟨"", []⟩]]

/- An operation with a parameter and a result. -/
def total : ModelOperation :=
  ⟨⟨⟨"total"⟩, "total"⟩, ["rate"], some "sum"⟩

/- The clerk in the middle refuses the operation itself. -/
def refusal : EarlyEnd Clerk where
  before := [.parameter "rate", .parameter "sum"]
  callback := .method total
  front := [⟨"", []⟩]
  failing := ⟨"method total", []⟩
  back := [⟨"", []⟩]
  cause := .builder "clerk" "method total"

/-
  Entering a classifier goes well with all clerks.  The
  operation reaches the first two of them only, after its
  parameters reached everybody.
-/
theorem runs_side_by_side_office :
    office.log [.classifier ⟨⟨"order"⟩, "Order"⟩ .ordinary] =
        Receipt.round 3
          (.classifier ⟨⟨"order"⟩, "Order"⟩ .ordinary) ∧
      ((Visit.operation total).drive office).1 =
        .error (.builder "clerk" "method total") ∧
      ((Visit.operation total).drive office).2.builders =
        [⟨"", ["param rate", "param sum", "method total"]⟩,
          ⟨"method total",
            ["param rate", "param sum", "method total"]⟩,
          ⟨"", ["param rate", "param sum"]⟩] ∧
      office.log [.operation total] =
        [⟨0, .parameter "rate"⟩, ⟨1, .parameter "rate"⟩,
          ⟨2, .parameter "rate"⟩, ⟨0, .parameter "sum"⟩,
          ⟨1, .parameter "sum"⟩, ⟨2, .parameter "sum"⟩,
          ⟨0, .method total⟩, ⟨1, .method total⟩] := by
  rcases runs_side_by_side office with
    ⟨_, _, hWell, hEnds, _⟩
  have hEntered := hWell
    [.classifier ⟨⟨"order"⟩, "Order"⟩ .ordinary]
    (by decide +kernel)
  have hRefusal :
      refusal.Ends office.builders
        (Visit.operation total).calls := by
    refine ⟨⟨[], rfl⟩, rfl, ?_, ?_, ?_⟩
    · unfold Takes
      decide +kernel
    · decide +kernel
    · decide +kernel
  rcases hEnds (.operation total) refusal hRefusal with
    ⟨hAnswer, hBuilders, hLog⟩
  refine ⟨hEntered.1, hAnswer, ?_, hLog⟩
  rw [hBuilders]
  decide +kernel

end Composite

end Palimpsest
