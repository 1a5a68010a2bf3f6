import Artboard.Proofs.CommandLine.Compile

/-! # Requests and the messages around them

A bare request can be wrapped as the data of a message.

* `wrap`: the text of the message around a request.
* `written_wrap`: such a text reads as the message, with the tree of the request as its data.
* `generate_wrap`: the command compiles the request and the message alike. -/

namespace Artboard.CommandLine

open Json (Reader Text Glyph NextMember Written membersFrom keepMember stringBody colon written
  nextMember_eq_ok written_eq_ok complete_eq_ok)

/-- The text of a message around a request. -/
def wrap (request : String) : String :=
  "\x7b\"type\":\"generate-design\",\"data\":" ++ request ++ "\x7d"

theorem ofString_wrap (r : String) : Text.ofString (wrap r) =
    Text.ofString "\x7b\"type\":\"generate-design\",\"data\":" ++
      (Text.ofString r ++ [.char '\x7d']) := by
  have houter := Text.ofString_append ("\x7b\"type\":\"generate-design\",\"data\":" ++ r) "\x7d"
  have hinner := Text.ofString_append "\x7b\"type\":\"generate-design\",\"data\":" r
  exact houter.trans ((congrArg (· ++ _) hinner).trans (List.append_assoc ..))

section Wrapping
variable {steps : Nat} {t u more rest : Text} {done all : List (String × Json)} {w w' x : Json}
  {base : Reader Json}

/-- The type is the first member of a message, and what follows `"data":` begins with its data. -/
theorem membersFrom_wrap
    (h : membersFrom .keep stringBody .key (keepMember (written 126)) (steps + 2) true []
      (Text.ofString "\"type\":\"generate-design\",\"data\":" ++ more) = .ok (all, rest)) :
    ∃ w u, written 126 more = .ok (w, u) ∧
      membersFrom .keep stringBody .key (keepMember (written 126)) steps false
        [("data", w), ("type", .string "generate-design")] u = .ok (all, rest) := by
  have htype : NextMember true
      (Text.ofString "\"type\":\"generate-design\",\"data\":" ++ more) .entry
      (Text.ofString "type\":\"generate-design\",\"data\":" ++ more) :=
    nextMember_eq_ok.mp (rfl : Json.nextMember .keep true _ = _)
  have hkind : written 126 (Text.ofString "\"generate-design\",\"data\":" ++ more) =
      .ok (.string "generate-design", Text.ofString ",\"data\":" ++ more) := rfl
  have hdata : NextMember false (Text.ofString ",\"data\":" ++ more) .entry
      (Text.ofString "data\":" ++ more) :=
    nextMember_eq_ok.mp (rfl : Json.nextMember .keep false _ = _)
  have htypeKey : stringBody (Text.ofString "type\":\"generate-design\",\"data\":" ++ more) =
    .ok ("type", Text.ofString ":\"generate-design\",\"data\":" ++ more) := rfl
  have hdataKey : stringBody (Text.ofString "data\":" ++ more) =
    .ok ("data", Text.ofString ":" ++ more) := rfl
  have hcolon : colon (Text.ofString ":\"generate-design\",\"data\":" ++ more) =
    .ok (Text.ofString "\"generate-design\",\"data\":" ++ more) := rfl
  have hcolon' : colon (Text.ofString ":" ++ more) = .ok more := rfl
  obtain ⟨kind, u, hkind', h⟩ := Json.membersFrom_of_entry htype htypeKey hcolon h
  obtain ⟨rfl, rfl⟩ := Prod.mk.inj (Except.ok.inj (hkind.symm.trans hkind'))
  exact Json.membersFrom_of_entry hdata hdataKey hcolon' h

/-- Where an object is closed, all its members were read. -/
theorem all_of_close (hrest : rest.skipBlank = [])
    (h : membersFrom .keep stringBody .key (keepMember base) steps false done
      (rest ++ [.char '\x7d']) = .ok (all, t)) : all = done := by
  have hclose : Text.skipBlank (rest ++ [.char '\x7d']) = [.char '\x7d'] := by
    unfold Text.skipBlank at hrest ⊢
    rw [List.dropWhile_append, hrest]; rfl
  cases steps with
  | zero => cases h
  | succ steps =>
    have hnext : NextMember false (rest ++ [.char '\x7d']) .close [.char '\x7d'] := by
      refine nextMember_eq_ok.mp (?_ : Json.nextMember .keep false _ = _)
      rw [Json.nextMember, hclose]
      rfl
    rw [Json.membersFrom_of_close hnext] at h
    cases h
    rfl

/-- What is read in front of the closing brace, one bracket further in, is the whole text. -/
theorem eq_of_written (hw : Written 127 t w rest)
    (hx : written 126 (t ++ [.char '\x7d']) = .ok (x, u)) : x = w ∧ u = rest ++ [.char '\x7d'] := by
  have hclose : Json.Delimited [.char '\x7d'] := by
    intro c rest h
    obtain rfl : '\x7d' = c := Glyph.char.inj (List.cons.inj h).1
    decide
  have hnil : Json.Delimited [] := fun _ _ h => by cases h
  have hdata : Written 127 (t ++ [.char '\x7d']) w (rest ++ [.char '\x7d']) :=
    hw.append hclose le_rfl
  have hx : Written 127 (t ++ [.char '\x7d'] ++ []) x (u ++ []) :=
    (written_eq_ok.mp hx).append hnil (Nat.le_succ 126)
  rw [List.append_nil, List.append_nil] at hx
  have hsame := (written_eq_ok.mpr hx).symm.trans (written_eq_ok.mpr hdata)
  exact Prod.mk.inj (Except.ok.inj hsame)

/-- **A message that is wrapped around a request has the request as its data.** -/
theorem written_wrap {r : String} (hw : Json.complete written (Text.ofString r) = .ok w)
    (hw' : Json.complete written (Text.ofString (wrap r)) = .ok w') :
    w' = .object [("type", .string "generate-design"), ("data", w)] := by
  obtain ⟨rest, hw, hrest⟩ := complete_eq_ok.mp hw
  obtain ⟨rest', hw', -⟩ := complete_eq_ok.mp hw'
  rw [ofString_wrap] at hw'
  cases written_eq_ok.mp hw' with
  | scalar h => exact absurd rfl (h.ne_bracket _).2
  | array hopen => cases hopen
  | @object _ _ inner t _ ms hopen hmembers hclose =>
    obtain rfl := (List.cons.inj hopen).2
    obtain ⟨x, u, hx, hmore⟩ := membersFrom_wrap hmembers
    obtain ⟨rfl, rfl⟩ := eq_of_written (written_eq_ok.mp hw) hx
    have hall := all_of_close hrest hmore
    exact congrArg Json.object (List.reverse_eq_iff.mp hall)

end Wrapping

/-! ### Compiling both -/

section Compile
variable {r : String} {v v' : Json}

/-- **The message around a request** reads as a message for its tree, which has a type. -/
theorem ofText_wrap (hr : Json.parse (Text.ofString r) = .ok v)
    (hwrapped : Json.parse (Text.ofString (wrap r)) = .ok v') :
    Message.ofText (Text.ofString (wrap r)) = .ok (.forDesign v.canonical) ∧
      (v'.member? "type").isSome := by
  obtain ⟨w, hw, hv⟩ := Json.parse_eq_ok.mp hr
  obtain ⟨w', hw', hv'⟩ := Json.parse_eq_ok.mp hwrapped
  obtain rfl := written_wrap hw hw'
  constructor
  · exact Message.ofText_of_written hw' (Message.ofWritten_of_members hv _)
  · have hms : Json.embeddedIn? [("type", Json.string "generate-design"), ("data", w)] = none := by
      rw [Json.embeddedIn?, if_neg (by decide)]
    exact Json.isSome_member?_of_resolved hms (List.mem_cons_self ..) hv'

/-- **A request and the message around it are compiled alike.** Let a text read as JSON, but not as
an object with a type, and let it also read as JSON when it is wrapped. On empty documents with one
viewport the command prints the same reply for both, whatever comes of the request, and the same
document up to its ids. -/
theorem generate_wrap (hr : Json.parse (Text.ofString r) = .ok v)
    (htype : v.member? "type" = none) (hwrapped : Json.parse (Text.ofString (wrap r)) = .ok v')
    (ids ids' : IdSupply) (view : Viewport) (input input' : String) (snapshot : Bool) :
    ∃ reply document document',
      generate (.new ids view) input snapshot (.ok (Text.ofString r)) =
        reported snapshot reply document ∧
      generate (.new ids' view) input' snapshot (.ok (Text.ofString (wrap r))) =
        reported snapshot reply document' ∧
      document.snapshot.Alike document'.snapshot := by
  obtain ⟨hmessage, htype'⟩ := ofText_wrap hr hwrapped
  obtain ⟨hreply, halike⟩ :=
    Bridge.receive_alike bridge.listen bridge.listen () () ids ids' view (.forDesign v.canonical)
  have hanswer (document : Document) : ∃ reply,
    (bridge.receive (.forDesign v.canonical) ⟨document, ()⟩).1 = some reply := ⟨_, rfl⟩
  obtain ⟨reply, hsome⟩ := hanswer (.new ids view)
  refine ⟨reply, _, _, generate_of_compile hr ?_ input snapshot,
    generate_of_compile hwrapped ?_ input' snapshot, halike⟩
  · rw [compile, htype, if_neg (by simp)]
    exact Prod.ext hsome rfl
  · rw [compile, if_pos htype', Bridge.receiveText, hmessage]
    exact Prod.ext (hreply.symm.trans hsome) rfl

/-- A request in brackets, with its frame in brackets and a component that is `null`. -/
theorem generate_wrap_bracketed :
    let r := "[[\"Login\"],[null]]"
    (∃ v, Json.parse (Text.ofString r) = .ok v ∧ v.member? "type" = none) ∧
      (∃ v, Json.parse (Text.ofString (wrap r)) = .ok v) ∧
      ∃ reply document document',
        generate (.new (.from 0) .standard) "a.json" true (.ok (Text.ofString r)) =
          reported true reply document ∧
        generate (.new (.from 9) .standard) "-" true (.ok (Text.ofString (wrap r))) =
          reported true reply document' ∧
        document.snapshot.Alike document'.snapshot := by
  intro r
  let v : Json := .array [.array [.string "Login"], .array [.null]]
  have hr : Json.parse (Text.ofString r) = .ok v := Json.eq_ok_of_same (by decide +kernel)
  have hwrapped : Json.parse (Text.ofString (wrap r)) =
      .ok (.object [("type", .string "generate-design"), ("data", v)]) :=
    Json.eq_ok_of_same (by decide +kernel)
  have htype : v.member? "type" = none := rfl
  exact ⟨⟨v, hr, htype⟩, ⟨_, hwrapped⟩,
    generate_wrap hr htype hwrapped (.from 0) (.from 9) .standard "a.json" "-" true⟩

end Compile

end Artboard.CommandLine
