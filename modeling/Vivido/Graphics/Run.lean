import Vivido.Graphics.Graphics

/-!
Everything that can happen to the graphics state of a terminal: commands in
pieces, decodes that are taken and finish, replies that leave, and what the
terminal does to the screens.
-/

namespace Vivido.Graphics

variable {F : Type} [F32 F]

/-- One thing that happens to the graphics state. -/
inductive Op where
  | apcStart
  | apcPut (bytes : List UInt8)
  | apcEnd (cancelled : Bool) (cursor : Cursor)
  | takeJobs
  /-- Decodes finish, in this order. -/
  | finishJobs (jobs : List QueuedJob)
  | popReply
  | takeQuietBytes
  | setDeferredDecode (defer : Bool)
  | setCell (cell : CellPixels)
  | scroll (scroll : Scroll)
  | clearScreen (history : Bool)
  | clearHistory
  | setAlternate (alternate : Bool)
  | reset
  | applyAnchors (moved : Bool → ℕ → Option (ℤ × ℤ))

/-- A whole command, received at once with the cursor at home. -/
def whole (text : String) : List Op :=
  [.apcStart, .apcPut (text.toList.map ascii), .apcEnd false ⟨0, 0⟩]

namespace KittyGraphics

/-- The state after one thing happened. -/
def apply (decoders : Decoders) (g : KittyGraphics F) : Op → KittyGraphics F
  | .apcStart => g.apcStart
  | .apcPut bytes => g.apcPut decoders bytes
  | .apcEnd cancelled cursor => (g.apcEnd decoders cancelled cursor).1
  | .takeJobs => g.takeJobs.1
  | .finishJobs jobs => g.finishJobs (jobs.map (QueuedJob.run decoders))
  | .popReply => g.popReply.1
  | .takeQuietBytes => g.takeQuietBytes.1
  | .setDeferredDecode defer => g.setDeferredDecode defer
  | .setCell cell => g.setCell cell
  | .scroll scroll => g.scroll scroll
  | .clearScreen history => g.clearScreen history
  | .clearHistory => g.clearHistory
  | .setAlternate alternate => g.setAlternate alternate
  | .reset => g.reset
  | .applyAnchors moved => g.applyAnchors moved

/-- The state after a sequence of things happened. -/
def applyAll (decoders : Decoders) (g : KittyGraphics F) (ops : List Op) : KittyGraphics F :=
  ops.foldl (apply decoders) g

end KittyGraphics

end Vivido.Graphics
