import Artboard.Drawing.Screen
import Artboard.Json.Tagged

/-! # Messages

The user interface sends messages with a type and any data; generation answers with a reply.

* `Message`: an incoming message; `Message.screen` decodes its data as a screen.
* `Reply`: an outgoing message. -/

namespace Artboard

open Json (Decoder Field Mismatch ReadError Variant)

/-- An incoming message. -/
structure Message where
  kind : String
  /-- The data as it came, in canonical form. -/
  data : Json
  deriving Repr

namespace Message

/-- The type of messages that ask for a design. -/
def generateDesign : String := "generate-design"

/-- A message that asks for a design. -/
def forDesign (data : Json) : Message := ⟨generateDesign, data⟩

/-- Whether a message asks for a design. -/
def isForDesign (m : Message) : Bool := m.kind = generateDesign

/-- The tree of a message. -/
def toJson (m : Message) : Json := .object [("type", .string m.kind), ("data", m.data)]

/-- The decoder of messages. -/
def decoder : Decoder Message :=
  .record "InboundMessage"
    (.cons (.required "type" .string) (.cons (.default "data" .null .value) .nil))
    fun (kind, data, _) => ⟨kind, data⟩

/-- The message that a text spells. -/
def ofText (text : Json.Text) : Except ReadError Message := decoder.parse text

/-- The screen in the data of a message. -/
def screen (m : Message) : Except Mismatch Screen := Screen.ofTree m.data

end Message

/-- An outgoing message. -/
inductive Reply
  /-- A request for a design was worked off, with or without success. -/
  | generationComplete (outcome : Outcome)
  deriving DecidableEq, Repr

namespace Reply

/-- The outcome in a reply. -/
def outcome : Reply → Outcome
  | .generationComplete outcome => outcome

/-- The type of replies. -/
def tag : String := "generation-complete"

/-- The tree of a reply. -/
def toJson : Reply → Json
  | .generationComplete outcome => .object (("type", .string tag) :: outcome.members)

/-- The decoder of replies. -/
def decoder : Decoder Reply :=
  .tagged "OutboundMessage" [.record tag (Outcome.decoder.map .generationComplete)]

end Reply

/-- Where data is asked for but cannot be decoded, the outcome starts with these words. -/
def undecodable : String := "Serialization error: "

end Artboard
