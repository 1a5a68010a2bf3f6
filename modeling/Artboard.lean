import Artboard.Main
import Artboard.Service.Basic
import Artboard.Proofs.Document.Snapshot
import Artboard.Proofs.Document.Moves
import Artboard.Proofs.Document.Lossless
import Artboard.Proofs.Drawing.Generation
import Artboard.Proofs.Drawing.Acceptance
import Artboard.Proofs.Drawing.Refusal
import Artboard.Proofs.Drawing.Attempts
import Artboard.Proofs.Drawing.Discipline
import Artboard.Proofs.Drawing.Independence
import Artboard.Proofs.Drawing.Unknown
import Artboard.Proofs.Screen.Routes
import Artboard.Proofs.Bridge.Replies
import Artboard.Proofs.Bridge.Wire
import Artboard.Proofs.Service.History
import Artboard.Proofs.Service.Serialised
import Artboard.Proofs.CommandLine.Wrap
import Artboard.Proofs.CommandLine.Scanning
import Artboard.Proofs.CommandLine.Spellings
import Artboard.Proofs.CommandLine.Lines
import Artboard.Proofs.CommandLine.Precedence
import Artboard.Proofs.Json.Carried
import Artboard.Proofs.Screen.Wire
