import Artboard.Message

/-! # The message bridge

The bridge takes messages from the user interface to a canvas and reports each outcome.

* `Panel`: the window of the user interface.
* `Bridge.receive`, `Bridge.receiveText`: what a message or a text leads to. -/

namespace Artboard

open Json (Decoder Field)

/-- The window of the user interface. -/
structure Panel where
  title : String
  url : String
  width : Nat
  height : Nat
  deriving DecidableEq, Repr

namespace Panel

/-- The title of a window without one. -/
def defaultTitle : String := "Design Forge"

/-- The page of a window without one. -/
def defaultUrl : String := "plugin.html"

/-- A window of the usual size. -/
def new (title url : String) : Panel := ⟨title, url, 400, 600⟩

/-- The window without any settings. -/
def standard : Panel := new defaultTitle defaultUrl

/-- The tree of a window. -/
def toJson (p : Panel) : Json :=
  .object [("title", .string p.title), ("url", .string p.url), ("width", .int p.width),
    ("height", .int p.height)]

/-- The decoder of windows. -/
def decoder : Decoder Panel :=
  let size := Decoder.natural "u32" (Nat.pow 2 32)
  .record "PanelConfig"
    (.cons (.required "title" .string) (.cons (.required "url" .string)
      (.cons (.required "width" size) (.cons (.required "height" size) .nil))))
    fun (title, url, width, height, _) => ⟨title, url, width, height⟩

end Panel

/-- A bridge to a canvas with states of type `σ`; who listens to outcomes has states of type `τ`. -/
structure Bridge (σ τ : Type) where
  canvas : Canvas σ
  /-- What a listener makes of an outcome. -/
  listen : Reply → τ → τ

/-- A state of a bridge. -/
structure Bridge.State (σ τ : Type) where
  canvas : σ
  listener : τ

namespace Bridge

variable {σ τ : Type}

/-- Draws a screen on the canvas. -/
def generate (b : Bridge σ τ) (screen : Screen) (s : State σ τ) : Reply × State σ τ :=
  let (outcome, canvas) := screen.generate b.canvas s.canvas
  (.generationComplete outcome, { s with canvas })

/-- What a request for a design leads to. Data that is no screen leaves the canvas alone. -/
def answer (b : Bridge σ τ) (m : Message) (s : State σ τ) : Reply × State σ τ :=
  match m.screen with
  | .ok screen => b.generate screen s
  | .error e => (.generationComplete (.failed (undecodable ++ e.message)), s)

/-- Receives a message. A request for a design is answered, and the listener hears the answer. -/
def receive (b : Bridge σ τ) (m : Message) (s : State σ τ) : Option Reply × State σ τ :=
  if m.isForDesign then
    let (reply, s) := b.answer m s
    (some reply, { s with listener := b.listen reply s.listener })
  else (none, s)

/-- Receives a text. One that is no message is ignored. -/
def receiveText (b : Bridge σ τ) (text : Json.Text) (s : State σ τ) : Option Reply × State σ τ :=
  match Message.ofText text with
  | .ok m => b.receive m s
  | .error _ => (none, s)

end Bridge

end Artboard
