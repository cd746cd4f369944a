import Palimpsest.Proofs.Build.Alone

/-
  Composites under watch.

  A composite is watched while it is driven: every builder is
  given its place in the order of registration, and a log that
  all of them share says who was handed which callback.  A
  composite hands out to its builders in a row, however it is
  nested, and does the same when it is watched.

  Main declarations:
    * `Composite.handOut`
    * `Composite.handOut_builders`
    * `Composite.receive_eq_handOut`
    * `Composite.flat`
    * `Receipt`
    * `Composite.watch`
    * `Watched.receive_row`
    * `Watched.simulates_watched`
-/

namespace Palimpsest

------------------------------------------------------------
-- Handing Out In A Shared World
------------------------------------------------------------

namespace Composite

variable {γ σ : Type}

/-
  Hand something to builders in a row, up to the first that
  fails.  What is handed out can be noted down in a state that
  all builders share.
-/
def handOutRow
    (hand : γ → σ → Except BuildError Unit × γ × σ) :
    List γ → σ → Except BuildError Unit × List γ × σ
| [], s => (.ok (), [], s)
| b :: rest, s =>
    match hand b s with
    | (.error e, b, s) => (.error e, b :: rest, s)
    | (.ok (), b, s) =>
        match handOutRow hand rest s with
        | (answer, rest, s) => (answer, b :: rest, s)

mutual

/- Hand something to a single builder or to all parts. -/
def handOut
    (hand : γ → σ → Except BuildError Unit × γ × σ) :
    Composite γ → σ → Except BuildError Unit × Composite γ × σ
| .single b, s =>
    match hand b s with
    | (answer, b, s) => (answer, .single b, s)
| .several parts, s =>
    match handOutAll hand parts s with
    | (answer, parts, s) => (answer, .several parts, s)

/- Hand something to parts, up to the first that fails. -/
def handOutAll
    (hand : γ → σ → Except BuildError Unit × γ × σ) :
    List (Composite γ) → σ →
      Except BuildError Unit × List (Composite γ) × σ
| [], s => (.ok (), [], s)
| part :: rest, s =>
    match handOut hand part s with
    | (.error e, part, s) => (.error e, part :: rest, s)
    | (.ok (), part, s) =>
        match handOutAll hand rest s with
        | (answer, rest, s) => (answer, part :: rest, s)

end

/- A row that is handed out in two parts. -/
theorem handOutRow_append
    (hand : γ → σ → Except BuildError Unit × γ × σ)
    (first second : List γ)
    (s : σ) :
    handOutRow hand (first ++ second) s =
      match handOutRow hand first s with
      | (.error e, first, s) => (.error e, first ++ second, s)
      | (.ok (), first, s) =>
          match handOutRow hand second s with
          | (answer, second, s) =>
              (answer, first ++ second, s) := by
  induction first generalizing s with
  | nil =>
      rfl
  | cons b first ih =>
      rw [List.cons_append, handOutRow, handOutRow]
      rcases hand b s with ⟨answer, b', s'⟩
      cases answer with
      | error e =>
          rfl
      | ok _ =>
          simp only [ih]
          rcases handOutRow hand first s' with
            ⟨answer, first', s''⟩
          cases answer <;> rfl

mutual

/- A composite hands out to its builders in a row. -/
theorem handOut_builders
    (hand : γ → σ → Except BuildError Unit × γ × σ)
    (c : Composite γ)
    (s : σ) :
    handOutRow hand c.builders s =
      ((handOut hand c s).1, (handOut hand c s).2.1.builders,
        (handOut hand c s).2.2) := by
  cases c with
  | single b =>
      rw [builders, handOutRow, handOut]
      rcases hand b s with ⟨answer, b', s'⟩
      cases answer <;> rfl
  | several parts =>
      rw [builders, handOutAll_builders hand parts s, handOut]
      rfl

/- Parts hand out to all their builders in a row. -/
theorem handOutAll_builders
    (hand : γ → σ → Except BuildError Unit × γ × σ)
    (parts : List (Composite γ))
    (s : σ) :
    handOutRow hand (buildersOf parts) s =
      ((handOutAll hand parts s).1,
        buildersOf (handOutAll hand parts s).2.1,
        (handOutAll hand parts s).2.2) := by
  cases parts with
  | nil =>
      rfl
  | cons part rest =>
      rw [buildersOf, handOutRow_append,
        handOut_builders hand part s, handOutAll]
      rcases handOut hand part s with ⟨answer, part', s'⟩
      cases answer with
      | error e =>
          rfl
      | ok _ =>
          simp only [handOutAll_builders hand rest s']
          rfl

end

variable {β : Type} [Builder β]

/- Hand a callback to a builder without noting anything. -/
def tell
    (k : Callback)
    (b : β)
    (s : Unit) : Except BuildError Unit × β × Unit :=
  ((Builder.receive k b).1, (Builder.receive k b).2, s)

mutual

/- A composite receives a callback by handing it out. -/
theorem receive_eq_handOut
    (k : Callback)
    (c : Composite β) :
    c.receive k =
      ((handOut (tell k) c ()).1,
        (handOut (tell k) c ()).2.1) := by
  cases c with
  | single b =>
      rfl
  | several parts =>
      rw [receive, receiveAll_eq_handOutAll k parts, handOut]

/- Parts receive a callback by handing it out. -/
theorem receiveAll_eq_handOutAll
    (k : Callback)
    (parts : List (Composite β)) :
    receiveAll k parts =
      ((handOutAll (tell k) parts ()).1,
        (handOutAll (tell k) parts ()).2.1) := by
  cases parts with
  | nil =>
      rfl
  | cons part rest =>
      rw [receiveAll, receive_eq_handOut k part, handOutAll]
      rcases handOut (tell k) part () with ⟨answer, part', s⟩
      cases answer with
      | error e =>
          rfl
      | ok _ =>
          simp only [receiveAll_eq_handOutAll k rest]

end

/- Composites with the same builders receive alike. -/
theorem simulates_of_builders :
    Simulates (fun c d : Composite β =>
      c.builders = d.builders) := by
  intro k c d hSame
  have hRow : handOutRow (tell k) c.builders () =
      handOutRow (tell k) d.builders () := by
    rw [hSame]
  rw [handOut_builders, handOut_builders] at hRow
  simp only [Prod.mk.injEq] at hRow
  show (c.receive k).1 = (d.receive k).1 ∧
    (c.receive k).2.builders = (d.receive k).2.builders
  rw [receive_eq_handOut, receive_eq_handOut]
  exact ⟨hRow.1, hRow.2.1⟩

------------------------------------------------------------
-- Composites Without Nesting
------------------------------------------------------------

/- All single builders side by side, without nesting. -/
def flat (c : Composite β) : Composite β :=
  .several (c.builders.map .single)

/- Single builders side by side. -/
omit [Builder β] in
theorem buildersOf_map_single (bs : List β) :
    buildersOf (bs.map .single) = bs := by
  induction bs with
  | nil =>
      rfl
  | cons b bs ih =>
      rw [List.map_cons, buildersOf, builders, ih]
      rfl

/- The builders stay when the nesting is taken away. -/
omit [Builder β] in
theorem builders_flat (c : Composite β) :
    c.flat.builders = c.builders :=
  buildersOf_map_single c.builders

end Composite

------------------------------------------------------------
-- Watching Builders
------------------------------------------------------------

/- A builder with its place in the order of registration. -/
structure Placed (β : Type) where
  place : Nat
  builder : β
deriving DecidableEq

/- Somebody was handed a callback. -/
structure Receipt where
  place : Nat
  callback : Callback
deriving DecidableEq

variable {β : Type}

namespace Composite

mutual

/- Give all builders their places, from a first one on. -/
def placedFrom (n : Nat) : Composite β → Composite (Placed β)
| .single b => .single ⟨n, b⟩
| .several parts => .several (placedAllFrom n parts)

/- Give all builders of some parts their places. -/
def placedAllFrom
    (n : Nat) :
    List (Composite β) → List (Composite (Placed β))
| [] => []
| part :: rest =>
    placedFrom n part ::
      placedAllFrom (n + part.builders.length) rest

end

mutual

/- The places are given in the order of registration. -/
theorem builders_placedFrom
    (n : Nat)
    (c : Composite β) :
    (placedFrom n c).builders =
      (c.builders.zipIdx n).map (fun b => ⟨b.2, b.1⟩) := by
  cases c with
  | single b =>
      rfl
  | several parts =>
      exact buildersOf_placedAllFrom n parts

/- The places of parts are given in the same order. -/
theorem buildersOf_placedAllFrom
    (n : Nat)
    (parts : List (Composite β)) :
    buildersOf (placedAllFrom n parts) =
      ((buildersOf parts).zipIdx n).map
        (fun b => ⟨b.2, b.1⟩) := by
  cases parts with
  | nil =>
      rfl
  | cons part rest =>
      rw [placedAllFrom, buildersOf, buildersOf,
        builders_placedFrom n part,
        buildersOf_placedAllFrom _ rest, List.zipIdx_append,
        List.map_append]

end

end Composite

/-
  A composite under watch, with the log that its builders
  share.
-/
structure Watched (β : Type) where
  composite : Composite (Placed β)
  log : List Receipt

/- Watch a composite from now on. -/
def Composite.watch (c : Composite β) : Watched β :=
  ⟨c.placedFrom 0, []⟩

variable [Builder β]

instance : Builder (Placed β) :=
  ⟨fun k b =>
    ((Builder.receive k b.builder).1,
      ⟨b.place, (Builder.receive k b.builder).2⟩)⟩

namespace Watched

/- Hand a callback to a builder and write it into the log. -/
def note
    (k : Callback)
    (b : Placed β)
    (log : List Receipt) :
    Except BuildError Unit × Placed β × List Receipt :=
  ((Builder.receive k b).1, (Builder.receive k b).2,
    log ++ [⟨b.place, k⟩])

instance : Builder (Watched β) :=
  ⟨fun k w =>
    match w.composite.handOut (note k) w.log with
    | (answer, composite, log) => (answer, ⟨composite, log⟩)⟩

/- The builders under watch, without their places. -/
def builders (w : Watched β) : List β :=
  w.composite.builders.map Placed.builder

/- A watched composite goes through its builders in a row. -/
theorem receive_row
    (k : Callback)
    (w : Watched β) :
    Composite.handOutRow (note k) w.composite.builders w.log =
      ((Builder.receive k w).1,
        (Builder.receive k w).2.composite.builders,
        (Builder.receive k w).2.log) :=
  Composite.handOut_builders (note k) w.composite w.log

/- Rows behave alike with and without a log. -/
theorem handOutRow_note
    (k : Callback)
    (bs : List (Placed β))
    (log : List Receipt) :
    (Composite.handOutRow (note k) bs log).1 =
        (Composite.handOutRow (Composite.tell k)
          (bs.map Placed.builder) ()).1 ∧
      (Composite.handOutRow (note k) bs log).2.1.map
          Placed.builder =
        (Composite.handOutRow (Composite.tell k)
          (bs.map Placed.builder) ()).2.1 := by
  induction bs generalizing log with
  | nil =>
      exact ⟨rfl, rfl⟩
  | cons b bs ih =>
      have hAnswer :
          (Builder.receive k b).1 =
            (Builder.receive k b.builder).1 :=
        rfl
      have hBuilder :
          (Builder.receive k b).2.builder =
            (Builder.receive k b.builder).2 :=
        rfl
      rw [List.map_cons, Composite.handOutRow,
        Composite.handOutRow]
      simp only [note, Composite.tell, hAnswer]
      cases (Builder.receive k b.builder).1 with
      | error e =>
          exact ⟨rfl, congrArg (· :: _) hBuilder⟩
      | ok _ =>
          have hRest := ih (log ++ [⟨b.place, k⟩])
          exact ⟨hRest.1, congrArg₂ List.cons hBuilder hRest.2⟩

/- A composite does the same when it is watched. -/
theorem simulates_watched :
    Simulates (fun (w : Watched β) (c : Composite β) =>
      w.builders = c.builders) := by
  intro k w c hSame
  have hWatched := receive_row k w
  have hNote := handOutRow_note k w.composite.builders w.log
  have hBuilders :
      w.composite.builders.map Placed.builder = c.builders :=
    hSame
  have hPlain := Composite.handOut_builders
    (Composite.tell k) c ()
  rw [hWatched, hBuilders, hPlain] at hNote
  show _ = (c.receive k).1 ∧ _ = (c.receive k).2.builders
  rw [Composite.receive_eq_handOut]
  exact hNote

/- Composites with the same builders have the same log. -/
theorem simulates_of_builders :
    Simulates (fun w x : Watched β =>
      w.composite.builders = x.composite.builders ∧
        w.log = x.log) := by
  intro k w x hSame
  have hW := receive_row k w
  have hX := receive_row k x
  rw [hSame.1, hSame.2, hX] at hW
  simp only [Prod.mk.injEq] at hW
  exact ⟨hW.1.symm, hW.2.1.symm, hW.2.2.symm⟩

end Watched

end Palimpsest
