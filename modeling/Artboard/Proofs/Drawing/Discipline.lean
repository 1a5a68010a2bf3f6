import Artboard.Proofs.Canvas.Transcript
import Artboard.Proofs.Drawing.Generation
import Artboard.Proofs.Drawing.Sequence

/-! # Which calls a drawing makes

A drawing that goes to its end makes the calls of a script: those for the board, then those for each
block. One that is refused breaks off in such a script.

* `Board.entries`, `Block.entries`, `script`: the calls with their answers.
* `transcript_screen`: the transcript of a drawing that goes to its end is a script.
* `Sourced`: no call is about an id that was not given before. `apart_of_script`: what is about a
  shape stands together.
* `Disciplined`: what holds of a transcript that is a script up to some point.
* `disciplined_of_draw`: it holds of every drawing on every canvas that gives no id twice. -/

namespace Artboard

open Plan (Transcript BreaksOff breaksOff_append)

namespace Entry

/-- The ids in the call and in the answer. -/
def about (e : Entry) : List ShapeId := e.made ++ e.mentions

/-- The changes that give a shape attributes. -/
def configuring (id : ShapeId) (as : List Attribute) : List Entry :=
  as.map fun a => .changed (.set id a)

end Entry

open Entry (ids configuring)

/-- The calls for a board: it is created, named, resized and moved. -/
def Board.entries (b : Board) : List Entry :=
  .created .board b.id ::
    configuring b.id [.name b.name, .size b.width b.height, .position b.x b.y]

/-- The calls for a block: its shape is created, gets its attributes and is attached. -/
def Block.entries (board id : ShapeId) (b : Block) : List Entry :=
  .created b.primitive id :: configuring id b.attributes ++ [.changed (.append board id)]

/-- The calls for blocks whose shapes have some ids. -/
def partEntries (board : ShapeId) (parts : List (ShapeId × Block)) : List Entry :=
  parts.flatMap fun p => p.2.entries board p.1

/-- The calls for a board and blocks on it. -/
def script (board : Board) (parts : List (ShapeId × Block)) : List Entry :=
  board.entries ++ partEntries board.id parts

/-! ### Drawings that go to their end -/

section Transcripts
variable {log : List Entry} {board id : ShapeId}

theorem transcript_setAll : ∀ {as : List Attribute} {log : List Entry},
    (Plan.setAll id as).Transcript log (.ok ()) → log = configuring id as
  | [], _, h => (Transcript.of_pure h).1
  | a :: as, _, h => by
    obtain ⟨_, first, second, rfl, ha, has⟩ := Transcript.of_bind h
    rw [Transcript.of_edit ha, transcript_setAll has]; rfl

theorem transcript_draw {b : Block} (h : (b.draw board).Transcript log (.ok id)) :
    log = b.entries board id := by
  obtain ⟨id', new, _, rfl, hnew, h⟩ := Transcript.of_bind h
  obtain ⟨_, set, _, rfl, hset, h⟩ := Transcript.of_bind h
  obtain ⟨_, append, _, rfl, happend, h⟩ := Transcript.of_bind h
  obtain ⟨rfl, rfl⟩ := Transcript.of_pure h
  rw [Transcript.of_new hnew, transcript_setAll hset, Transcript.of_edit happend]; rfl

theorem transcript_drawAll : ∀ {blocks : List Block} {log : List Entry} {shapes : List ShapeId},
    (Block.drawAll board blocks).Transcript log (.ok shapes) → ∃ parts : List (ShapeId × Block),
      parts.map Prod.fst = shapes ∧ parts.map Prod.snd = blocks ∧ log = partEntries board parts
  | [], _, _, h => by
    obtain ⟨rfl, rfl⟩ := Transcript.of_pure h
    exact ⟨[], rfl, rfl, rfl⟩
  | b :: blocks, _, _, h => by
    obtain ⟨id, first, _, rfl, hfirst, h⟩ := Transcript.of_bind h
    obtain ⟨rest, second, _, rfl, hrest, h⟩ := Transcript.of_bind h
    obtain ⟨rfl, rfl⟩ := Transcript.of_pure h
    obtain ⟨parts, rfl, rfl, rfl⟩ := transcript_drawAll hrest
    refine ⟨(id, b) :: parts, rfl, rfl, ?_⟩
    rw [transcript_draw hfirst, List.append_nil]; rfl

theorem transcript_frame {f : FrameSpec} {b : Board} (h : f.draw.Transcript log (.ok b)) :
    log = b.entries ∧ b.name = f.boardName ∧ b.width = f.boardWidth ∧ b.height = f.boardHeight := by
  obtain ⟨id, new, _, rfl, hnew, h⟩ := Transcript.of_bind h
  obtain ⟨_, name, _, rfl, hname, h⟩ := Transcript.of_bind h
  obtain ⟨_, size, _, rfl, hsize, h⟩ := Transcript.of_bind h
  obtain ⟨center, look, _, rfl, hlook, h⟩ := Transcript.of_bind h
  obtain ⟨_, move, _, rfl, hmove, h⟩ := Transcript.of_bind h
  obtain ⟨rfl, rfl⟩ := Transcript.of_pure h
  rw [Transcript.of_new hnew, Transcript.of_edit hname, Transcript.of_edit hsize,
    Transcript.of_viewCenter hlook, Transcript.of_edit hmove]
  exact ⟨rfl, rfl, rfl, rfl⟩

/-- **The calls of a drawing that goes to its end are a script.** -/
theorem transcript_screen {s : Screen} {r : Drawing} (h : s.draw.Transcript log (.ok r)) :
    ∃ parts : List (ShapeId × Block), log = script r.board parts ∧ parts.map Prod.fst = r.shapes ∧
      parts.map Prod.snd = Component.allBlocks r.board s.components ∧
      r.board.name = s.frame.boardName ∧ r.board.width = s.frame.boardWidth ∧
      r.board.height = s.frame.boardHeight := by
  rw [Screen.draw_eq] at h
  obtain ⟨board, first, second, rfl, hframe, h⟩ := Transcript.of_bind h
  obtain ⟨shapes, hblocks, rfl⟩ := Transcript.of_map h
  obtain ⟨rfl, hboard⟩ := transcript_frame hframe
  obtain ⟨parts, rfl, hparts, rfl⟩ := transcript_drawAll hblocks
  exact ⟨parts, rfl, rfl, hparts, hboard⟩

end Transcripts

/-! ### Ids in a script -/

section Ids
variable {board id : ShapeId} {b : Block} {parts : List (ShapeId × Block)}

theorem ids_append (xs ys : List Entry) : ids (xs ++ ys) = ids xs ++ ids ys := List.flatMap_append

theorem ids_configuring (id : ShapeId) (as : List Attribute) : ids (configuring id as) = [] := by
  rw [ids, configuring, List.flatMap_map]
  exact List.flatMap_eq_nil_iff.mpr fun _ _ => rfl

theorem ids_entries (board id : ShapeId) (b : Block) : ids (b.entries board id) = [id] := by
  rw [Block.entries, ids_append, ids, List.flatMap_cons, ← ids, ids_configuring]; rfl

theorem ids_partEntries (board : ShapeId) (parts : List (ShapeId × Block)) :
    ids (partEntries board parts) = parts.map Prod.fst := by
  induction parts with
  | nil => rfl
  | cons p parts ih =>
    rw [partEntries, List.flatMap_cons, ids_append, ids_entries, ← partEntries, ih]; rfl

theorem ids_script (board : Board) (parts : List (ShapeId × Block)) :
    ids (script board parts) = board.id :: parts.map Prod.fst := by
  rw [script, ids_append, ids_partEntries]; rfl

theorem attached_configuring (id : ShapeId) (as : List Attribute) :
    (configuring id as).filterMap Entry.attached? = [] := by
  rw [configuring, List.filterMap_map]
  exact List.filterMap_eq_nil_iff.mpr fun _ _ => rfl

theorem attached_partEntries (board : ShapeId) (parts : List (ShapeId × Block)) :
    (partEntries board parts).filterMap Entry.attached? = parts.map Prod.fst := by
  induction parts with
  | nil => rfl
  | cons p parts ih =>
    have hentries : (p.2.entries board p.1).filterMap Entry.attached? = [p.1] := by
      rw [Block.entries, List.filterMap_append, List.filterMap_cons_none rfl, attached_configuring]
      rfl
    rw [partEntries, List.flatMap_cons, List.filterMap_append, hentries, ← partEntries, ih]; rfl

theorem about_configuring {as : List Attribute} {e : Entry} (he : e ∈ configuring id as) :
    e.about = [id] := by
  obtain ⟨a, -, rfl⟩ := List.mem_map.mp he
  rfl

/-- The calls for a block are about its shape, and the last one also about the board. -/
theorem about_entries {e : Entry} (he : e ∈ b.entries board id) :
    e.about = [id] ∨ e = .changed (.append board id) := by
  rcases List.mem_append.mp he with he | he
  · rcases List.mem_cons.mp he with rfl | he
    · exact .inl rfl
    · exact .inl (about_configuring he)
  · exact .inr (List.mem_singleton.mp he)

theorem about_board {board : Board} {e : Entry} (he : e ∈ board.entries) :
    e.about = [board.id] := by
  rcases List.mem_cons.mp he with rfl | he
  · rfl
  · exact about_configuring he

theorem about_partEntries {e : Entry} (he : e ∈ partEntries board parts) {j : ShapeId}
    (hj : j ∈ e.about) : j = board ∨ j ∈ parts.map Prod.fst := by
  obtain ⟨p, hp, he⟩ := List.mem_flatMap.mp he
  have hid : p.1 ∈ parts.map Prod.fst := List.mem_map_of_mem hp
  rcases about_entries he with habout | rfl
  · rw [habout, List.mem_singleton] at hj
    exact .inr (hj ▸ hid)
  · rcases List.mem_cons.mp hj with rfl | hj
    · exact .inl rfl
    · exact .inr (List.mem_singleton.mp hj ▸ hid)

/-- After it is drawn, the board is only the one that shapes are attached to. -/
theorem append_of_about_board (hboard : board ∉ parts.map Prod.fst) {e : Entry}
    (he : e ∈ partEntries board parts) (habout : board ∈ e.about) :
    ∃ child, child ≠ board ∧ e.call = .edit (.append board child) := by
  obtain ⟨p, hp, he⟩ := List.mem_flatMap.mp he
  have hne : p.1 ≠ board := fun heq => hboard (heq ▸ List.mem_map_of_mem hp)
  rcases about_entries he with h | rfl
  · rw [h, List.mem_singleton] at habout
    exact absurd habout.symm hne
  · exact ⟨p.1, hne, rfl⟩

/-- **What is about a shape stands together.** -/
theorem not_about_of_apart {board : Board} {before after : List (ShapeId × Block)}
    (hnodup : (ids (script board (before ++ (id, b) :: after))).Nodup) {e : Entry}
    (he : e ∈ board.entries ++ partEntries board.id before ++ partEntries board.id after) :
    id ∉ e.about := by
  rw [ids_script, List.map_append, List.map_cons, List.nodup_cons, List.nodup_middle,
    List.nodup_cons] at hnodup
  obtain ⟨hboard, hid, -⟩ := hnodup
  have hne : id ≠ board.id := fun heq => hboard (by simp [heq])
  rw [List.mem_append, not_or] at hid
  intro habout
  rcases List.mem_append.mp he with he | he
  · rcases List.mem_append.mp he with he | he
    · rw [about_board he, List.mem_singleton] at habout
      exact hne habout
    · exact (about_partEntries he habout).elim hne hid.1
  · exact (about_partEntries he habout).elim hne hid.2

end Ids

/-! ### Ids that were given before -/

/-- Each call is about ids that are known or were given by a call before it. -/
def Sourced (known : List ShapeId) : List Entry → Prop
  | [] => True
  | e :: rest => (∀ id ∈ e.mentions, id ∈ known) ∧ Sourced (known ++ e.made) rest

section Sourced
variable {known : List ShapeId} {board id : ShapeId}

theorem sourced_append : ∀ {xs ys : List Entry} {known : List ShapeId},
    Sourced known (xs ++ ys) ↔ Sourced known xs ∧ Sourced (known ++ ids xs) ys
  | [], _, _ => by simp [Sourced, ids]
  | x :: xs, ys, known => by
    rw [List.cons_append, Sourced, Sourced, sourced_append, and_assoc, List.append_assoc]; rfl

theorem Sourced.mentions {log before after : List Entry} {e : Entry} (h : Sourced [] log)
    (hlog : log = before ++ e :: after) : ∀ id ∈ e.mentions, id ∈ ids before := by
  rw [hlog, sourced_append] at h
  simpa using h.2.1

/-- Up to a refusal the ids were given as they are in the whole. -/
theorem Sourced.of_breaksOff {whole log : List Entry} {e : CanvasError} (h : Sourced known whole)
    (hlog : BreaksOff whole log e) : Sourced known log := by
  obtain ⟨before, entry, after, rfl, rfl⟩ := hlog
  obtain ⟨hbefore, hentry, -⟩ := sourced_append.mp h
  exact sourced_append.mpr ⟨hbefore, hentry, trivial⟩

theorem sourced_configuring : ∀ (as : List Attribute) {known : List ShapeId}, id ∈ known →
    Sourced known (configuring id as)
  | [], _, _ => trivial
  | _ :: as, _, hid => ⟨List.forall_mem_singleton.mpr hid,
      sourced_configuring as (List.mem_append_left _ hid)⟩

theorem sourced_entries (hboard : board ∈ known) (id : ShapeId) (b : Block) :
    Sourced known (b.entries board id) := by
  have hid : id ∈ known ++ [id] := List.mem_append_right _ (List.mem_singleton_self id)
  refine sourced_append.mpr ⟨⟨List.forall_mem_nil _, sourced_configuring _ hid⟩, ?_, trivial⟩
  refine List.forall_mem_cons.mpr ⟨List.mem_append_left _ hboard, List.forall_mem_singleton.mpr ?_⟩
  exact List.mem_append_right _ (List.mem_cons_self ..)

theorem sourced_partEntries : ∀ (parts : List (ShapeId × Block)) {known : List ShapeId},
    board ∈ known → Sourced known (partEntries board parts)
  | [], _, _ => trivial
  | p :: parts, _, hboard => sourced_append.mpr ⟨sourced_entries hboard p.1 p.2,
      sourced_partEntries parts (List.mem_append_left _ hboard)⟩

theorem sourced_script (board : Board) (parts : List (ShapeId × Block)) :
    Sourced [] (script board parts) := by
  have hid : board.id ∈ [board.id] := List.mem_singleton_self _
  exact sourced_append.mpr ⟨⟨List.forall_mem_nil _, sourced_configuring _ hid⟩,
    sourced_partEntries parts (List.mem_cons_self ..)⟩

end Sourced

/-! ### Transcripts of drawings -/

/-- **The calls of a drawing**, with its result: those for a board, named, resized and moved, and
then those for its shapes. -/
structure Disciplined (s : Screen) (log : List Entry) (r : Except CanvasError Drawing)
    (board : Board) (parts : List (ShapeId × Block)) : Prop where
  /-- The board is what the frame says, and the shapes are those of the components. -/
  named : board.name = s.frame.boardName ∧ board.width = s.frame.boardWidth ∧
    board.height = s.frame.boardHeight
  blocks : parts.map Prod.snd = Component.allBlocks board s.components
  /-- The board is created first. -/
  first : log.head?.map Entry.call = some (.create .board)
  /-- All calls for the board come before any others, unless one of them is refused. After them the
  board is only the one that shapes are attached to. -/
  opening : (∃ e, r = .error e ∧ BreaksOff board.entries log e) ∨
    ∃ rest, log = board.entries ++ rest ∧ ∀ e ∈ rest, board.id ∈ e.about →
      ∃ child, child ≠ board.id ∧ e.call = .edit (.append board.id child)
  /-- Each id that a call is about was given by a call before it. -/
  sourced : ∀ before e after, log = before ++ e :: after → ∀ id ∈ e.mentions, id ∈ ids before
  /-- What is about a shape stands together: it is created, gets its attributes and is attached.
  Only where the drawing was refused this breaks off, and nothing comes after it. -/
  apart : ∀ id ∈ ids log, id ≠ board.id → ∃ b before segment after, (id, b) ∈ parts ∧
    log = before ++ segment ++ after ∧ (∀ e ∈ before ++ after, id ∉ e.about) ∧
    (segment = b.entries board.id id ∨
      after = [] ∧ ∃ e, r = .error e ∧ BreaksOff (b.entries board.id id) segment e)
  /-- A refused call is the last one. -/
  refused : ∀ e, r = .error e → BreaksOff (script board parts) log e
  /-- If none is refused the attached shapes are those that are reported. -/
  complete : ∀ d, r = .ok d → log = script board parts ∧ d.board = board ∧
    log.filterMap Entry.attached? = d.shapes

section Disciplined
variable {log whole : List Entry} {e : CanvasError} {board : Board}
  {parts : List (ShapeId × Block)} {id : ShapeId}

/-- Up to a refusal there are no calls but those of the whole, and no more ids. -/
theorem exists_of_mem_breaksOff (h : BreaksOff whole log e) {y : Entry} (hy : y ∈ log) :
    ∃ x ∈ whole, x.call = y.call ∧ ∀ id ∈ y.about, id ∈ x.about := by
  obtain ⟨before, entry, after, rfl, rfl⟩ := h
  rcases List.mem_append.mp hy with hy | hy
  · exact ⟨y, List.mem_append_left _ hy, rfl, fun _ h => h⟩
  · obtain rfl := List.mem_singleton.mp hy
    refine ⟨entry, List.mem_append_right _ (List.mem_cons_self ..), rfl, fun id hid => ?_⟩
    exact List.mem_append_right _ hid

theorem exists_of_mem_ids (hid : id ∈ ids log) : ∃ e ∈ log, id ∈ e.about := by
  obtain ⟨e, he, hid⟩ := List.mem_flatMap.mp hid
  exact ⟨e, he, List.mem_append_left _ hid⟩

theorem mem_ids_of_breaksOff (h : BreaksOff whole log e) (hid : id ∈ ids log) : id ∈ ids whole := by
  obtain ⟨before, entry, after, rfl, rfl⟩ := h
  rw [ids_append] at hid ⊢
  exact (List.mem_append.mp hid).elim (List.mem_append_left _) fun h => nomatch h

/-- What is about a shape of a script, in the script and where it breaks off. -/
theorem apart_of_script (hnodup : (ids (script board parts)).Nodup)
    (hid : id ∈ parts.map Prod.fst) : ∃ b before after, (id, b) ∈ parts ∧
      script board parts = before ++ (b.entries board.id id ++ after) ∧
      ∀ e ∈ before ++ after, id ∉ e.about := by
  obtain ⟨⟨id, b⟩, hp, rfl⟩ := List.mem_map.mp hid
  obtain ⟨before, after, rfl⟩ := List.append_of_mem hp
  refine ⟨b, board.entries ++ partEntries board.id before, partEntries board.id after, hp, ?_,
    fun e he => not_about_of_apart hnodup he⟩
  rw [script, partEntries, List.flatMap_append, List.flatMap_cons, List.append_assoc]; rfl

theorem head_of_breaksOff (h : BreaksOff whole log e) :
    log.head?.map Entry.call = whole.head?.map Entry.call := by
  obtain ⟨before, entry, after, rfl, rfl⟩ := h
  cases before <;> rfl

/-- After a board the calls are about it only to attach shapes, also where they break off. -/
theorem append_of_breaksOff (hboard : board.id ∉ parts.map Prod.fst)
    (h : BreaksOff (partEntries board.id parts) log e) {y : Entry} (hy : y ∈ log)
    (habout : board.id ∈ y.about) :
    ∃ child, child ≠ board.id ∧ y.call = .edit (.append board.id child) := by
  obtain ⟨x, hx, hcall, hsub⟩ := exists_of_mem_breaksOff h hy
  rw [← hcall]
  exact append_of_about_board hboard hx (hsub _ habout)

variable {s : Screen} {d : Drawing}

/-- **A drawing that goes to its end is disciplined.** -/
theorem disciplined_of_ok (h : s.draw.Transcript log (.ok d)) (hnodup : (ids log).Nodup) :
    ∃ parts, Disciplined s log (.ok d) d.board parts := by
  obtain ⟨parts, rfl, hshapes, hblocks, hnamed⟩ := transcript_screen h
  have hids := hnodup
  rw [ids_script, List.nodup_cons] at hids
  refine ⟨parts, hnamed, hblocks, rfl, .inr ⟨_, rfl, fun e he habout => ?_⟩,
    fun before e after hlog => (sourced_script d.board parts).mentions hlog,
    fun id hid hne => ?_, fun e he => (by cases he), fun d' hd => ?_⟩
  · exact append_of_about_board hids.1 he habout
  · rw [ids_script] at hid
    obtain ⟨b, before, after, hp, hscript, hapart⟩ :=
      apart_of_script hnodup ((List.mem_cons.mp hid).resolve_left hne)
    refine ⟨b, before, b.entries d.board.id id, after, hp, ?_, hapart, .inl rfl⟩
    rw [hscript, List.append_assoc]
  · cases hd
    refine ⟨rfl, rfl, ?_⟩
    rw [script, List.filterMap_append, attached_partEntries, hshapes]; rfl

/-- **A drawing that breaks off in one that goes to its end is disciplined.** -/
theorem disciplined_of_error (h : s.draw.Transcript whole (.ok d)) (hnodup : (ids whole).Nodup)
    (hbreak : BreaksOff whole log e) : ∃ parts, Disciplined s log (.error e) d.board parts := by
  obtain ⟨parts, rfl, hshapes, hblocks, hnamed⟩ := transcript_screen h
  have hids := hnodup
  rw [ids_script, List.nodup_cons] at hids
  refine ⟨parts, hnamed, hblocks, head_of_breaksOff hbreak, ?_,
    fun before e after hlog => ((sourced_script d.board parts).of_breaksOff hbreak).mentions hlog,
    fun id hid hne => ?_, fun e' he => (by cases he; exact hbreak), fun d' hd => (by cases hd)⟩
  · rcases breaksOff_append.mp hbreak with hboard | ⟨rest, rfl, hparts⟩
    · exact .inl ⟨e, rfl, hboard⟩
    · exact .inr ⟨rest, rfl, fun y hy habout => append_of_breaksOff hids.1 hparts hy habout⟩
  · obtain ⟨y, hy, hidy⟩ := exists_of_mem_ids hid
    have hmem := mem_ids_of_breaksOff hbreak hid
    rw [ids_script] at hmem
    obtain ⟨b, before, after, hp, hscript, hapart⟩ :=
      apart_of_script hnodup ((List.mem_cons.mp hmem).resolve_left hne)
    rw [hscript] at hbreak
    -- the drawing was refused before the shape, at the shape or after it
    rcases breaksOff_append.mp hbreak with hfirst | ⟨rest, rfl, hrest⟩
    · obtain ⟨x, hx, -, hsub⟩ := exists_of_mem_breaksOff hfirst hy
      exact absurd (hsub id hidy) (hapart x (List.mem_append_left _ hx))
    rcases breaksOff_append.mp hrest with hat | ⟨last, rfl, hafter⟩
    · refine ⟨b, before, rest, [], hp, by rw [List.append_nil], fun x hx => ?_,
        .inr ⟨rfl, e, rfl, hat⟩⟩
      rw [List.append_nil] at hx
      exact hapart x (List.mem_append_left _ hx)
    · refine ⟨b, before, b.entries d.board.id id, last, hp, by rw [List.append_assoc],
        fun x hx habout => ?_, .inl rfl⟩
      rcases List.mem_append.mp hx with hx | hx
      · exact hapart x (List.mem_append_left _ hx) habout
      · obtain ⟨z, hz, -, hsub⟩ := exists_of_mem_breaksOff hafter hx
        exact hapart z (List.mem_append_right _ hz) (hsub id habout)

end Disciplined

/-- **Every drawing on a canvas that gives no id twice is disciplined**, whether it succeeds or is
refused. -/
theorem disciplined_of_draw {σ : Type} (canvas : Canvas σ) (s : Screen) (state : σ)
    (hdistinct : (ids (s.draw.run canvas.recorded ⟨state, []⟩).2.log).Nodup) :
      let run := s.draw.run canvas.recorded ⟨state, []⟩
    (run.1 = (s.draw.run canvas state).1 ∧ run.2.state = (s.draw.run canvas state).2) ∧
      ∃ board parts, Disciplined s run.2.log run.1 board parts := by
  intro run
  obtain ⟨log, hlog, hrun⟩ := Plan.transcript_recorded canvas s.draw state []
  rw [List.nil_append] at hrun
  have hdistinct : (ids log).Nodup := by rw [hrun] at hdistinct; exact hdistinct
  rw [show run = _ from hrun]
  refine ⟨⟨rfl, rfl⟩, ?_⟩
  rcases hr : (s.draw.run canvas state).1 with e | d <;> rw [hr] at hlog
  · obtain ⟨whole, d, hwhole, hbreak, hnodup, -⟩ :=
      hlog.exists_whole [] hdistinct fun _ _ => List.not_mem_nil
    exact ⟨d.board, disciplined_of_error hwhole hnodup hbreak⟩
  · exact ⟨d.board, disciplined_of_ok hlog hdistinct⟩

/-- A drawing of fourteen calls on a document. -/
theorem disciplined_login :
    let run := Document.login.draw.run Document.canvas.recorded ⟨Document.sketch, []⟩
    (ids run.2.log).Nodup ∧ run.2.log.length = 14 ∧
      ∃ board parts, Disciplined Document.login run.2.log run.1 board parts := by
  intro run
  have hdistinct : (ids run.2.log).Nodup := by decide +kernel
  exact ⟨hdistinct, by decide +kernel,
    (disciplined_of_draw Document.canvas Document.login Document.sketch hdistinct).2⟩

end Artboard
