import Vivido.Dcs.Chunking
import Vivido.Marker.Chunking
import Vivido.Osc.Agreement
import Vivido.Vivid.Following
import Vivido.Vivid.Showing
import Vivido.Graphics.Deferral
import Vivido.Graphics.Watching
import Vivido.Actor.Answering
import Vivido.Actor.Cancelling
import Vivido.Scene.Releasing
import Vivido.Service.Reissue
import Vivido.Authority.Contracting
import Vivido.Channel.Naming
import Vivido.Lane.Replay
import Vivido.FileDrop.Streamed
import Vivido.Channel.Crediting
import Vivido.Automation.Subscribed
import Vivido.Authority.Reserved
import Vivido.Ipc.Answered
import Vivido.Tty.Readiness
import Vivido.Overlay.Presenting
import Vivido.Anchor.SingleUse
import Vivido.Rendezvous.Sparing
import Vivido.Playout.Barrier
import Vivido.Texture.Current
import Vivido.Grid.DownPaths
import Vivido.Term.LineEdits
import Vivido.Graphics.Deletion
import Vivido.Graphics.Fragments
import Vivido.Graphics.Inheritance
import Vivido.Term.Found
import Vivido.Term.Clearing
import Vivido.Term.Keyboard
import Vivido.Transport.Writing
import Vivido.Automation.Transcript
import Vivido.Trace.Honest
import Vivido.Presentation.Announcing
import Vivido.Scene.Committing
import Vivido.Scene.Retention
import Vivido.FileDrop.Binding
import Vivido.FileDrop.Cancelling
import Vivido.Service.Unstranded
import Vivido.FileDrop.Typing
import Vivido.Ipc.Framing
import Vivido.Text.Shortening
import Vivido.Plan.Substituting
import Vivido.Osc.Notifying
import Vivido.Shell.Tabs
import Vivido.Grid.Points
import Vivido.Grid.Packed
import Vivido.Texture.Copying
import Vivido.Vivid.Microphone
import Vivido.FileDrop.Posting
import Vivido.Display.Damage
import Vivido.Display.Hints
