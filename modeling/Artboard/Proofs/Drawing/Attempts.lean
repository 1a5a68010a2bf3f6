import Artboard.Proofs.Document.Snapshot
import Artboard.Proofs.Drawing.Refusal
import Artboard.Proofs.Drawing.Stray

/-! # Screens drawn one after another

Screens are drawn in turn on one document. A drawing that is refused leaves what it has made so far.

* `Attempt`, `attempts`, `afterAll`: the drawings one by one, and the document after all of them.
* `Trace`: the shapes that a drawing made. `Trace.Left`: how a document shows them.
* `left_of_attempt`: what a drawing leaves. `left_of_attempts`: it is still there after others.
* `Trace.Left.countP_hidden`: a snapshot shows all of it but a stray shape.
* `left_by_screens`: what screens that are drawn in turn leave in a document that was empty. -/

namespace Artboard.Document

/-! ### Drawings in turn -/

/-- A screen that is drawn on a document. -/
structure Attempt where
  before : Document
  screen : Screen

namespace Attempt

/-- What is reported of the drawing. -/
def outcome (q : Attempt) : Outcome := (q.screen.generate canvas q.before).1

/-- The document after the drawing. -/
def after (q : Attempt) : Document := (q.screen.generate canvas q.before).2

/-- The board was drawn, and then a component was refused. -/
def brokeOff (q : Attempt) : Bool :=
  (q.screen.frame.draw.run canvas q.before).1.isOk && !q.outcome.success

end Attempt

/-- The drawings of screens, each on the document that the one before left. -/
def attempts (d : Document) : List Screen → List Attempt
  | [] => []
  | s :: rest => ⟨d, s⟩ :: attempts (Attempt.after ⟨d, s⟩) rest

/-- The document after screens were drawn on it in turn. -/
def afterAll (d : Document) : List Screen → Document
  | [] => d
  | s :: rest => (Attempt.after ⟨d, s⟩).afterAll rest

namespace Attempt

variable {q : Attempt} {r : Except CanvasError Drawing} {e : Document}

theorem outcome_eq (h : q.screen.draw.run canvas q.before = (r, e)) : q.outcome = .ofDrawing r :=
  congrArg Prod.fst (Screen.generate_eq h)

theorem after_eq (h : q.screen.draw.run canvas q.before = (r, e)) : q.after = e :=
  congrArg Prod.snd (Screen.generate_eq h)

end Attempt

/-! ### What a drawing made -/

/-- The shapes that a drawing made. -/
structure Trace where
  board : ShapeId
  /-- The shapes on the board. -/
  attached : List ShapeId
  /-- The shape that was not finished when a call was refused. -/
  stray : Option ShapeId

/-- The shapes in the order of their creation. -/
def Trace.created (t : Trace) : List ShapeId := t.board :: t.attached ++ t.stray.toList

/-- **How a document shows what a drawing made.** -/
structure Trace.Left (t : Trace) (q : Attempt) (d : Document) : Prop where
  /-- The board has no parent, and the attached shapes are its children. -/
  board : ∃ b, d.get? t.board = some b ∧ b.kind = .board ∧ b.parent = none ∧
    b.children = t.attached
  attached : ∀ id ∈ t.attached, ∃ s, d.get? id = some s ∧ s.OnBoard t.board
  stray : ∀ id ∈ t.stray, ∃ s, d.get? id = some s ∧ s.Loose
  /-- There is a stray shape just if a component was refused. -/
  stray_iff : t.stray.isSome = q.brokeOff
  /-- If the board was refused, there is nothing else. -/
  bare : (q.screen.frame.draw.run canvas q.before).1.isOk = false → t.attached = []
  /-- If nothing was refused, the attached shapes are those that are reported. -/
  complete : ∀ r e, q.screen.draw.run canvas q.before = (.ok r, e) → t.attached = r.shapes
  /-- If a component was refused, those before it can be drawn alone. -/
  broken : q.brokeOff = true → ∃ cs c rest, q.screen.components = cs ++ c :: rest ∧
    (Attempt.mk q.before ⟨q.screen.frame, cs⟩).outcome.success = true ∧
    (Attempt.mk q.before ⟨q.screen.frame, cs ++ [c]⟩).outcome = q.outcome
  /-- Components that can be drawn without those behind them are on the board, as they are then. -/
  drawn : ∀ cs rest r e, q.screen.components = cs ++ rest →
    (Screen.mk q.screen.frame cs).draw.run canvas q.before = (.ok r, e) →
      r.board.id = t.board ∧ r.shapes <+: t.attached ∧ ∀ id ∈ r.shapes, d.get? id = e.get? id

/-- A document has more shapes, and all others are as they were. -/
structure Adds (d : Document) (ids : List ShapeId) (e : Document) : Prop where
  order : e.order = d.order ++ ids
  kept : ∀ j ∈ d.order, e.get? j = d.get? j
  viewport : e.viewport = d.viewport

variable {d e f : Document}

theorem Adds.trans {xs ys : List ShapeId} (h : d.Adds xs e) (h' : e.Adds ys f) :
    d.Adds (xs ++ ys) f where
  order := by rw [h'.order, h.order, List.append_assoc]
  kept j hj := by
    rw [h'.kept j (by rw [h.order]; exact List.mem_append_left _ hj), h.kept j hj]
  viewport := h'.viewport.trans h.viewport

/-- What was left stays as long as its shapes do. -/
theorem Trace.Left.later {t : Trace} {q : Attempt} (h : t.Left q e)
    (hkept : ∀ j ∈ t.created, f.get? j = e.get? j) : t.Left q f where
  board := by
    rw [hkept t.board (List.mem_cons_self ..)]; exact h.board
  attached id hid := by
    rw [hkept id (List.mem_append_left _ (List.mem_cons_of_mem _ hid))]; exact h.attached id hid
  stray id hid := by
    rw [hkept id (List.mem_append_right _ (Option.mem_toList.mpr hid))]; exact h.stray id hid
  stray_iff := h.stray_iff
  bare := h.bare
  complete := h.complete
  broken := h.broken
  drawn cs rest r e' hcs hrun := by
    obtain ⟨hboard, hfront, hshapes⟩ := h.drawn cs rest r e' hcs hrun
    refine ⟨hboard, hfront, fun id hid => ?_⟩
    rw [hkept id (List.mem_append_left _ (List.mem_cons_of_mem _ (hfront.subset hid)))]
    exact hshapes id hid

/-! ### One drawing -/

/-- A board is there after its drawing, also if that was refused. -/
theorem leaves_frame (f : FrameSpec) (d : Document) :
    let e := (f.draw.run canvas d).2
    (∃ b, e.get? d.nextId = some b ∧ b.kind = .board ∧ b.parent = none ∧ b.children = []) ∧
      (∀ j, j ≠ d.nextId → e.get? j = d.get? j) ∧ e.order = d.order ++ [d.nextId] ∧
      e.viewport = d.viewport := by
  intro e
  have htouch : Retouches d.nextId (d.create .board).2 e := by
    show Retouches d.nextId _ (Plan.run canvas (Plan.set d.nextId _ >>= _) (d.create .board).2).2
    refine retouches_bind (retouches_set _ _ _) fun _ d₂ _ => ?_
    refine retouches_bind (retouches_set _ _ _) fun _ d₃ _ => ?_
    refine retouches_bind (.refl d.nextId d₃) fun center d₄ _ => ?_
    exact retouches_bind (retouches_set _ _ _) fun _ d₅ _ => .refl d.nextId d₅
  obtain ⟨b, hb, -, hparent, hchildren, hkind⟩ := htouch.touched _ (get?_create_self d .board)
  refine ⟨⟨b, hb, Shape.isContainer_iff.mp hkind, hparent, hchildren⟩, fun j hj => ?_,
    htouch.order, htouch.viewport⟩
  rw [htouch.kept j hj, get?_create, if_neg hj]

section Broken
variable {s : Screen} {board : Board} {f : FrameSpec} {cs : List Component} {err : CanvasError}

theorem run_screen_of_frame (hframe : s.frame.draw.run canvas d = (.ok board, e)) :
    s.draw.run canvas d = (s.report board <$> Block.drawAll board.id
      (Component.allBlocks board s.components)).run canvas e := by
  rw [Screen.draw_eq, Plan.run_bind, hframe]

theorem run_screen_of_refused (hframe : s.frame.draw.run canvas d = (.error err, e)) :
    s.draw.run canvas d = (.error err, e) := by
  rw [Screen.draw_eq, Plan.run_bind, hframe]

/-- A screen that is refused is refused just so with more components. -/
theorem run_screen_append (h : (Screen.mk f cs).draw.run canvas d = (.error err, e))
    (rest : List Component) : (Screen.mk f (cs ++ rest)).draw.run canvas d = (.error err, e) := by
  rw [Screen.draw_eq] at h ⊢
  refine Plan.run_bind_eq_error.mpr ((Plan.run_bind_eq_error.mp h).imp_right ?_)
  rintro ⟨board, d₁, hframe, hblocks⟩
  refine ⟨board, d₁, hframe, Plan.run_map_eq_error.mpr ?_⟩
  rw [Component.allBlocks_append, Block.drawAll_append]
  exact Plan.run_bind_eq_error.mpr (.inl (Plan.run_map_eq_error.mp hblocks))

/-- The first component that is refused. -/
theorem exists_broken : ∀ (rest cs : List Component),
    (Attempt.mk d ⟨f, cs⟩).outcome.success = true →
      (Attempt.mk d ⟨f, cs ++ rest⟩).outcome.success = false →
        ∃ before c after, cs ++ rest = before ++ c :: after ∧
          (Attempt.mk d ⟨f, before⟩).outcome.success = true ∧
          (Attempt.mk d ⟨f, before ++ [c]⟩).outcome = (Attempt.mk d ⟨f, cs ++ rest⟩).outcome
  | [], cs, hok, hno => by
    rw [List.append_nil, hok] at hno; cases hno
  | c :: rest, cs, hok, hno => by
    have hsplit : cs ++ c :: rest = cs ++ [c] ++ rest := by simp
    rw [hsplit] at hno ⊢
    rcases h : (Screen.mk f (cs ++ [c])).draw.run canvas d with ⟨err | r, e⟩
    · refine ⟨cs, c, rest, hsplit.symm, hok, ?_⟩
      rw [Attempt.outcome_eq h, Attempt.outcome_eq (run_screen_append h rest)]
    · exact exists_broken rest (cs ++ [c]) (by rw [Attempt.outcome_eq h]; rfl) hno

end Broken

section Drawing
variable {s : Screen} {board : Board} {shapes : List Shape} {stray : Option Shape}

theorem Ready.reach {id : ShapeId} (hd : Ready d id) (he : WellFormed e)
    (h : d.Reaches id shapes stray e) : Ready e id where
  wellFormed := he
  board := by
    obtain ⟨b, hb, hcontainer⟩ := hd.board
    refine ⟨{ b with children := b.children ++ shapes.map Shape.id }, ?_, hcontainer⟩
    rw [h.appended, hb]; rfl

/-- **Blocks that can be drawn without those behind them are on the board**, as they are then. -/
theorem reaches_of_prefix {id : ShapeId} {blocks more : List Block} {ids : List ShapeId}
    (hd : Ready d id) (hproper : ∀ b ∈ blocks ++ more, b.Proper)
    (hall : d.Reaches id shapes stray ((Block.drawAll id (blocks ++ more)).run canvas d).2)
    (hfirst : (Block.drawAll id blocks).run canvas d = (.ok ids, e)) :
    ids <+: shapes.map Shape.id ∧ ∀ j ∈ ids,
      ((Block.drawAll id (blocks ++ more)).run canvas d).2.get? j = e.get? j := by
  obtain ⟨hblocks, hmore⟩ := List.forall_mem_append.mp hproper
  have hreach := reaches_of_drawAll hd hblocks
  rw [hfirst] at hreach
  obtain ⟨xs, hreach, rfl⟩ := hreach
  have he := hd.reach (hd.wellFormed.run_plan hfirst) hreach
  obtain ⟨ys, stray', hrest, -⟩ := (reaches_of_drawAll he hmore).exists_reaches
  have hend : ((Block.drawAll id (blocks ++ more)).run canvas d).2 =
      ((Block.drawAll id more).run canvas e).2 := by
    rw [Block.drawAll_append, Plan.run_bind, hfirst]
    show ((_ <$> Block.drawAll id more).run canvas e).2 = _
    rw [Plan.run_map]
  obtain ⟨b, hb, -⟩ := hd.board
  have hboard : id ∈ d.order := hd.wellFormed.mem_order_iff.mpr ⟨b, hb⟩
  have hnodup := he.wellFormed.order_nodup
  rw [hend] at hall ⊢
  have hids := (hreach.append hrest hnodup hboard).unique hall hb
  refine ⟨⟨ys.map Shape.id, by rw [← hids, List.map_append]⟩, fun j hj => ?_⟩
  have horder : e.order = d.order ++ xs.map Shape.id := by rw [hreach.order]; simp
  rw [horder, List.nodup_append] at hnodup
  refine hrest.kept j (by rw [horder]; exact List.mem_append_right _ hj) ?_
  exact (hnodup.2.2 id hboard j hj).symm

section Frame
variable (hframe : s.frame.draw.run canvas d = (.ok board, e))
include hframe

/-- Once its board is drawn, a screen is refused where the blocks of its components are. -/
theorem brokeOff_of_frame : (Attempt.mk d s).brokeOff = !((Block.drawAll board.id
    (Component.allBlocks board s.components)).run canvas e).1.isOk := by
  have hrun := run_screen_of_frame hframe
  rw [Plan.run_map] at hrun
  rw [Attempt.brokeOff, Attempt.outcome_eq hrun, hframe]
  rcases (Block.drawAll board.id _).run canvas e with ⟨_ | _, _⟩ <;> rfl

theorem broken_of_frame (hbroke : (Attempt.mk d s).brokeOff = true) :
    ∃ cs c rest, s.components = cs ++ c :: rest ∧
      (Attempt.mk d ⟨s.frame, cs⟩).outcome.success = true ∧
      (Attempt.mk d ⟨s.frame, cs ++ [c]⟩).outcome = (Attempt.mk d s).outcome := by
  have hnone : (Attempt.mk d ⟨s.frame, []⟩).outcome.success = true := by
    rw [Attempt.outcome_eq (run_screen_of_frame (s := ⟨s.frame, []⟩) hframe)]; rfl
  have hall : (Attempt.mk d ⟨s.frame, [] ++ s.components⟩).outcome.success = false := by
    rw [Attempt.brokeOff, Bool.and_eq_true, Bool.not_eq_true'] at hbroke
    exact hbroke.2
  exact exists_broken s.components [] hnone hall

/-- Components that can be drawn without those behind them are on the board. -/
theorem drawn_of_frame (he : Ready e board.id)
    (hall : e.Reaches board.id shapes stray (s.draw.run canvas d).2) {cs rest : List Component}
    {r : Drawing} {e' : Document} (hcs : s.components = cs ++ rest)
    (h : (Screen.mk s.frame cs).draw.run canvas d = (.ok r, e')) :
    r.board = board ∧ r.shapes <+: shapes.map Shape.id ∧
      ∀ id ∈ r.shapes, (s.draw.run canvas d).2.get? id = e'.get? id := by
  rw [run_screen_of_frame (s := ⟨s.frame, cs⟩) hframe] at h
  obtain ⟨ids, hfirst, rfl⟩ := Plan.run_map_eq_ok.mp h
  rw [run_screen_of_frame hframe, Plan.run_map, hcs, Component.allBlocks_append] at hall ⊢
  refine ⟨rfl, reaches_of_prefix he ?_ hall hfirst⟩
  rw [← Component.allBlocks_append]
  exact Component.proper board (cs ++ rest)

/-- **What a drawing leaves once its board is drawn.** -/
theorem left_of_frame (hd : WellFormed d) : ∃ t : Trace,
    t.Left ⟨d, s⟩ (Attempt.after ⟨d, s⟩) ∧ d.Adds t.created (Attempt.after ⟨d, s⟩) := by
  obtain ⟨hboard, hget, hother, horder, hview⟩ := run_frame hframe
  have hid : board.id = d.nextId := by rw [hboard]
  rw [← hid] at hget hother horder
  have he : Ready e board.id := ⟨hd.run_plan hframe, _, hget, rfl⟩
  have hproper := Component.proper board s.components
  obtain ⟨shapes, stray, hreach, hstray, hids⟩ := (reaches_of_drawAll he hproper).exists_reaches
  have hrun := run_screen_of_frame hframe
  rw [Plan.run_map] at hrun
  have hafter : Attempt.after ⟨d, s⟩ = (s.draw.run canvas d).2 := rfl
  have hreach : e.Reaches board.id shapes stray (s.draw.run canvas d).2 := by
    rw [hrun]; exact hreach
  have hcreated : (shapes ++ stray.toList).map Shape.id =
      shapes.map Shape.id ++ (stray.map Shape.id).toList := by cases stray <;> simp
  rw [hafter]
  refine ⟨⟨board.id, shapes.map Shape.id, stray.map Shape.id⟩, ?_, ?_, fun j hj => ?_,
    hreach.viewport.trans hview⟩
  · exact
      { board := ⟨_, by rw [hreach.appended, hget]; rfl, rfl, rfl, List.nil_append _⟩
        attached := fun id hid => by
          obtain ⟨t, ht, rfl⟩ := List.mem_map.mp hid
          exact ⟨t, hreach.stored t (List.mem_append_left _ ht), hreach.onBoard t ht⟩
        stray := fun id hid => by
          obtain ⟨t, ht, rfl⟩ := Option.map_eq_some_iff.mp hid
          have hmem : t ∈ shapes ++ stray.toList :=
            List.mem_append_right _ (Option.mem_toList.mpr ht)
          exact ⟨t, hreach.stored t hmem, hreach.loose t ht⟩
        stray_iff := by rw [brokeOff_of_frame hframe, ← hstray, Option.isSome_map]
        bare := fun hno => by rw [hframe] at hno; cases hno
        complete := fun r e' h => by
          rw [run_screen_of_frame hframe] at h
          obtain ⟨ids, hblocks, rfl⟩ := Plan.run_map_eq_ok.mp h
          exact (hids ids (by rw [hblocks])).symm
        broken := broken_of_frame hframe
        drawn := fun cs rest r e' hcs h => by
          obtain ⟨hboard, hshapes⟩ := drawn_of_frame hframe he hreach hcs h
          exact ⟨congrArg Board.id hboard, hshapes⟩ }
  · rw [hreach.order, horder, hcreated, List.append_assoc]; rfl
  · have hne : j ≠ board.id := fun heq => hd.nextId_not_mem_order (by rw [← hid, ← heq]; exact hj)
    rw [hreach.kept j (by rw [horder]; exact List.mem_append_left _ hj) hne, hother j hne]

end Frame

/-- **What a drawing leaves**, also where it is refused. -/
theorem left_of_attempt (hd : WellFormed d) (s : Screen) : ∃ t : Trace,
    t.Left ⟨d, s⟩ (Attempt.after ⟨d, s⟩) ∧ d.Adds t.created (Attempt.after ⟨d, s⟩) := by
  rcases hframe : s.frame.draw.run canvas d with ⟨err | board, e⟩
  · -- the board is there although its size or place was refused, and nothing else is
    have hrun := run_screen_of_refused hframe
    obtain ⟨hboard, hother, horder, hview⟩ := leaves_frame s.frame d
    rw [hframe] at hboard hother horder hview
    have hfailed : ∀ cs r e', (Screen.mk s.frame cs).draw.run canvas d ≠ (.ok r, e') := by
      intro cs r e' h
      rw [run_screen_of_refused (s := ⟨s.frame, cs⟩) hframe] at h; cases h
    have hbroke : (Attempt.mk d s).brokeOff = false := by rw [Attempt.brokeOff, hframe]; rfl
    rw [Attempt.after_eq (q := ⟨d, s⟩) hrun]
    refine ⟨⟨d.nextId, [], none⟩, ?_, horder, fun j hj => ?_, hview⟩
    · exact
        { board := hboard
          attached := List.forall_mem_nil _
          stray := fun _ h => by cases h
          stray_iff := hbroke.symm
          bare := fun _ => rfl
          complete := fun r e' h => absurd h (hfailed s.components r e')
          broken := fun h => by rw [hbroke] at h; cases h
          drawn := fun cs _ r e' _ h => absurd h (hfailed cs r e') }
    · exact hother j fun heq => hd.nextId_not_mem_order (heq ▸ hj)
  · exact left_of_frame hframe hd

end Drawing

/-! ### All drawings -/

theorem WellFormed.after (hd : WellFormed d) (s : Screen) : WellFormed (Attempt.after ⟨d, s⟩) :=
  hd.run_plan (p := s.draw) rfl

theorem WellFormed.afterAll : ∀ (screens : List Screen) {d : Document}, WellFormed d →
    WellFormed (d.afterAll screens)
  | [], _, hd => hd
  | s :: screens, _, hd => (hd.after s).afterAll screens

/-- **What screens that are drawn in turn leave.** -/
theorem left_of_attempts : ∀ (screens : List Screen) {d : Document}, WellFormed d →
    ∃ ts : List Trace,
      List.Forall₂ (fun t q => t.Left q (d.afterAll screens)) ts (d.attempts screens) ∧
        d.Adds (ts.flatMap Trace.created) (d.afterAll screens)
  | [], d, _ => ⟨[], .nil, by simp [afterAll], fun _ _ => rfl, rfl⟩
  | s :: screens, d, hd => by
    obtain ⟨t, hleft, hadds⟩ := left_of_attempt hd s
    obtain ⟨ts, hrest, hadds'⟩ := left_of_attempts screens (hd.after s)
    refine ⟨t :: ts, .cons (hleft.later fun j hj => hadds'.kept j ?_) hrest, hadds.trans hadds'⟩
    rw [hadds.order]
    exact List.mem_append_right _ hj

/-! ### What a snapshot shows of it -/

section Shown
variable {q : Attempt} {t : Trace}

/-- **A snapshot shows the board and the shapes on it, and no stray shape.** -/
theorem Trace.Left.countP_hidden (h : t.Left q d) (hd : WellFormed d) :
    t.created.countP (fun id => id ∉ d.snapshot.ids) = if q.brokeOff then 1 else 0 := by
  obtain ⟨b, hb, hkind, hparent, -⟩ := h.board
  have hboard : t.board ∈ d.snapshot.ids :=
    hd.mem_ids_snapshot.mpr ⟨0, t.board, b, rfl, hb, hparent, hkind⟩
  have hattached : ∀ id ∈ t.attached, id ∈ d.snapshot.ids := by
    intro id hid
    obtain ⟨s, hs, hon⟩ := h.attached id hid
    have hup := (parent?_of_get? hs).trans hon.parent
    exact hd.mem_ids_snapshot.mpr ⟨1, t.board, b, ascend_succ hup 0, hb, hparent, hkind⟩
  have hstray : ∀ id ∈ t.stray, id ∉ d.snapshot.ids := by
    intro id hid hmem
    obtain ⟨s, hs, hloose⟩ := h.stray id hid
    obtain ⟨n, root, r, hn, hr, -, hrkind⟩ := hd.mem_ids_snapshot.mp hmem
    cases n with
    | zero =>
      cases hn
      rw [hs] at hr
      cases hr; exact hloose.plain hrkind
    | succ n =>
      obtain ⟨p, hp, -⟩ := Option.bind_eq_some_iff.mp hn
      rw [parent?_of_get? hs, hloose.parentless] at hp; cases hp
  have hzero : t.attached.countP (fun id => id ∉ d.snapshot.ids) = 0 :=
    List.countP_eq_zero.mpr fun id hid => by simpa using hattached id hid
  rw [← h.stray_iff, created, List.cons_append, List.countP_cons, List.countP_append, hzero]
  cases hs : t.stray with
  | none => simp [hboard]
  | some id => simp [hboard, hstray id hs]

theorem countP_hidden_traces (hd : WellFormed d) : ∀ {ts : List Trace} {qs : List Attempt},
    List.Forall₂ (fun t q => t.Left q d) ts qs →
      (ts.flatMap Trace.created).countP (fun id => id ∉ d.snapshot.ids) =
        qs.countP Attempt.brokeOff
  | _, _, .nil => rfl
  | _, _, .cons h hs => by
    rw [List.flatMap_cons, List.countP_append, List.countP_cons, h.countP_hidden hd,
      countP_hidden_traces hd hs, Nat.add_comm]

/-- The shapes that a snapshot shows are counted once each. -/
theorem WellFormed.length_layers (hd : WellFormed d) :
    d.snapshot.layers.length = d.order.countP fun id => id ∈ d.snapshot.ids := by
  have hlength : d.snapshot.layers.length = d.snapshot.ids.length := by
    rw [Snapshot.ids, List.length_map]
  have hmem : ∀ id ∈ d.snapshot.ids, id ∈ d.order := by
    intro id hid
    obtain ⟨n, root, b, hn, hb, -⟩ := hd.mem_ids_snapshot.mp hid
    exact hd.mem_order_iff.mpr (exists_of_ascend hn hb)
  have hperm : d.snapshot.ids.Perm (d.order.filter fun id => id ∈ d.snapshot.ids) := by
    refine (List.perm_ext_iff_of_nodup hd.nodup_ids_snapshot (hd.order_nodup.filter _)).mpr
      fun id => ?_
    simp only [List.mem_filter, decide_eq_true_eq]
    exact ⟨fun h => ⟨hmem id h, h⟩, And.right⟩
  rw [hlength, hperm.length_eq, List.countP_eq_length_filter]

end Shown

/-- **What screens leave in a document that was empty**, if they are drawn in turn and some may be
refused. The shapes are those that the drawings made, in order; a snapshot misses as many as there
are drawings that broke off in a component. -/
theorem left_by_screens {d : Document} (hd : Reachable d) (hempty : d.isEmpty = true)
    (screens : List Screen) :
    let e := d.afterAll screens
    ∃ ts : List Trace, List.Forall₂ (fun t q => t.Left q e) ts (d.attempts screens) ∧
      e.shapes.map Shape.id = ts.flatMap Trace.created ∧ (ts.flatMap Trace.created).Nodup ∧
      e.snapshot.shapeCount = e.snapshot.layers.length +
        (d.attempts screens).countP Attempt.brokeOff := by
  intro e
  have hd := hd.wellFormed
  obtain ⟨ts, hleft, hadds⟩ := left_of_attempts screens hd
  have he : WellFormed e := hd.afterAll screens
  have hnone : d.order = [] := by
    rw [← List.length_eq_zero_iff, ← hd.shapeCount_eq]
    exact of_decide_eq_true hempty
  have horder : e.order = ts.flatMap Trace.created := by
    rw [hadds.order, hnone, List.nil_append]
  refine ⟨ts, hleft, he.map_id_shapes.trans horder, horder ▸ he.order_nodup, ?_⟩
  show e.shapeCount = _
  rw [he.shapeCount_eq, he.length_layers, ← countP_hidden_traces he hleft, ← horder]
  simpa using
    List.length_eq_countP_add_countP (fun id => decide (id ∈ e.snapshot.ids)) (l := e.order)

/-- A text that is fine, a button of negative width and a text that is not reached. -/
def strayScreen : Screen where
  frame := ⟨none, none, none⟩
  components := [.text ⟨none, none, some "Title", none, none, none⟩,
    .button ⟨none, none, some (-1.0), none, none, none, none, none⟩,
    .text ⟨none, none, none, none, none, none⟩]

/-- A screen whose board is refused. -/
def boardless : Screen := ⟨⟨none, some (-1.0), none⟩, []⟩

/-- A document that was cleared, and three screens of which the second breaks off. -/
theorem left_by_login :
    let d := (new (.from 0) .standard).run [.call (.create .rectangle), .clear]
    let screens := [boardless, strayScreen, login]
    d.isEmpty = true ∧ (d.attempts screens).map Attempt.brokeOff = [false, true, false] ∧
    let e := d.afterAll screens
    e.snapshot.shapeCount = 7 ∧ e.snapshot.layers.length = 6 ∧
    ∃ ts : List Trace, List.Forall₂ (fun t q => t.Left q e) ts (d.attempts screens) ∧
      e.shapes.map Shape.id = ts.flatMap Trace.created ∧ (ts.flatMap Trace.created).Nodup ∧
      e.snapshot.shapeCount = e.snapshot.layers.length +
        (d.attempts screens).countP Attempt.brokeOff := by
  intro d screens
  have hempty : d.isEmpty = true := by decide +kernel
  exact ⟨hempty, by decide +kernel, by decide +kernel, by decide +kernel,
    left_by_screens ⟨_, _, _, rfl⟩ hempty screens⟩

end Artboard.Document
