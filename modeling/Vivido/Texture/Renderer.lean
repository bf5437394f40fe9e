import Vivido.Scene.Request
import Vivido.Texture.Delta

/-!
The textures that the renderer keeps of the tracks of a scene. A pass takes the
items of a snapshot, drops textures that were not drawn for long, and uploads the
frame of each track that it draws, whole or, where the frame is a delta, only its
damage. Other threads use the scene at any time.
-/

namespace Vivido.Texture

open Scene

/-- `TEXTURE_GRACE`, in microseconds -/
def textureGrace : ℕ := 5000000

def maxRetainedPixels : ℕ := 32 * 1024 * 1024

/-- A frame, and where its pixels lie in memory. -/
structure Picture where
  frame : Frame
  address : ℕ

structure SourceTexture where
  /-- What the texture holds. -/
  texels : List UInt8
  frameId : ℕ
  ptsUs : ℤ
  width : ℕ
  height : ℕ
  rgbaPtr : ℕ
  rgbaLen : ℕ
  alphaMode : ℕ
  lastRendered : ℕ
  /-- The frame it was last uploaded for, which the program does not keep. -/
  shown : Frame

namespace SourceTexture

variable (track : SourceTexture) (picture : Picture)

def pixels : ℕ := track.width * track.height

/-- It is taken to hold the picture already. -/
def Unchanged : Prop :=
  track.frameId = picture.frame.frameId ∧ track.ptsUs = picture.frame.ptsUs ∧
    track.width = picture.frame.width ∧ track.height = picture.frame.height ∧
    track.rgbaPtr = picture.address ∧ track.rgbaLen = picture.frame.rgba.length

instance : Decidable (track.Unchanged picture) := inferInstanceAs (Decidable (_ ∧ _))

/-- It can be written over with the picture. -/
def Fits : Prop :=
  track.width = picture.frame.width ∧ track.height = picture.frame.height ∧
    track.alphaMode = picture.frame.alphaMode

instance : Decidable (track.Fits picture) := inferInstanceAs (Decidable (_ ∧ _))

end SourceTexture

/-- `Queue::write_texture`: a rectangle of a texture of the width is taken from the data, whose
rows have a length of their own. -/
def writeTexture (width : ℕ) (rect : RasterDamageRect) (data : List UInt8) (bytesPerRow : ℕ)
    (texels : List UInt8) : List UInt8 :=
  texels.mapIdx fun index texel =>
    if Covers width rect index then
      data[(index / 4 / width - rect.y) * bytesPerRow +
        (index / 4 % width - rect.x) * 4 + index % 4]?.getD texel
    else texel

/-- The damage of a frame is written, one rectangle after the other. -/
def writeDamage (frame : Frame) (damage : List RasterDamageRect) (texels : List UInt8) :
    List UInt8 :=
  damage.foldl (fun texels rect =>
    writeTexture frame.width rect
      (frame.rgba.drop ((rect.y * frame.width + rect.x) * 4)) (frame.width * 4) texels) texels

/-- A new texture. -/
def SourceTexture.create (picture : Picture) (now : ℕ) : SourceTexture where
  texels := picture.frame.rgba
  frameId := picture.frame.frameId
  ptsUs := picture.frame.ptsUs
  width := picture.frame.width
  height := picture.frame.height
  rgbaPtr := picture.address
  rgbaLen := picture.frame.rgba.length
  alphaMode := picture.frame.alphaMode
  lastRendered := now
  shown := picture.frame

/-- A texture that fits is written over. -/
def SourceTexture.write (track : SourceTexture) (picture : Picture) : SourceTexture :=
  { track with
      texels :=
        match picture.frame.damage with
        | some damage => writeDamage picture.frame damage track.texels
        | none => picture.frame.rgba
      frameId := picture.frame.frameId
      ptsUs := picture.frame.ptsUs
      rgbaPtr := picture.address
      rgbaLen := picture.frame.rgba.length
      shown := picture.frame }

/-- `upload_track`, from the track's texture, if it has one -/
def uploaded (track : Option SourceTexture) (picture : Picture) (now : ℕ) : SourceTexture :=
  match track with
  | none => .create picture now
  | some track =>
    if track.Unchanged picture then { track with shown := picture.frame }
    else if track.Fits picture then track.write picture
    else .create picture now

abbrev Textures := SortedMap TrackIdentity SourceTexture

/-- Past the budget the textures that were not rendered for longest go, until the rest fits. -/
def evictOver (total : ℕ) : List (TrackIdentity × ℕ × ℕ) → List TrackIdentity
  | [] => []
  | (key, _, pixels) :: rest =>
    if total ≤ maxRetainedPixels then [] else key :: evictOver (total - pixels) rest

/-- The keys of the textures to drop, of those not rendered now, with their ages and pixels. -/
def evictions (retained : List (TrackIdentity × ℕ × ℕ)) : List TrackIdentity :=
  let (expired, retained) := retained.partition fun entry => textureGrace ≤ entry.2.1
  let total := retained.foldl (fun total entry => saturatingAdd total entry.2.2) 0
  expired.map (·.1) ++
    if total ≤ maxRetainedPixels then []
    else evictOver total (retained.insertionSort fun a b => b.2.1 ≤ a.2.1)

/-- The textures that are drawn stay, and of the others those that are not evicted. -/
def retainTracks (active : List TrackIdentity) (now : ℕ) (tracks : Textures) : Textures :=
  let tracks := tracks.mapValues fun key track =>
    if key ∈ active then { track with lastRendered := now } else track
  let retained := tracks.entries.filterMap fun entry =>
    if entry.1 ∈ active then none
    else some (entry.1, now - entry.2.lastRendered, entry.2.pixels)
  tracks.filter fun entry => entry.1 ∉ evictions retained

/-- Upload the frame of the first item of a track. -/
def uploadTrack (items : List RenderItem) (address : TrackIdentity → ℕ) (now : ℕ)
    (tracks : Textures) (key : TrackIdentity) : Textures :=
  match items.find? (·.trackKey = key) with
  | none => tracks
  | some item =>
    tracks.insert key (uploaded (tracks.lookup key) ⟨item.frame, address key⟩ now)

/-- A pass over the items of a snapshot, of which some are within the window. -/
def renderTracks (items : List RenderItem) (rendered : List TrackIdentity)
    (address : TrackIdentity → ℕ) (now : ℕ) (tracks : Textures) : Textures :=
  rendered.dedup.foldl (uploadTrack items address now) (retainTracks rendered now tracks)

structure State (P : Protocol) where
  scene : Scene.State P
  /-- The snapshot that the renderer has taken last. -/
  items : List RenderItem := []
  tracks : Textures := .empty

inductive Act (P : Protocol) where
  /-- Some thread uses the scene. -/
  | request (request : Request P)
  /-- The renderer takes a snapshot. -/
  | snapshot
  /-- It draws the snapshot, of which the tracks given are visible. Their pixels lie where the
  allocator has put them. -/
  | render (rendered : List TrackIdentity) (address : TrackIdentity → ℕ) (now : ℕ)

variable {P : Protocol}

def State.step (s : State P) : Act P → State P
  | .request request => { s with scene := (s.scene.perform request).1 }
  | .snapshot => { s with scene := s.scene.snapshot.1, items := s.scene.snapshot.2.items }
  | .render rendered address now =>
    { s with tracks := renderTracks s.items rendered address now s.tracks }

def run (scene : Scene.State P) (acts : List (Act P)) : State P :=
  acts.foldl State.step { scene }

theorem run_concat (scene : Scene.State P) (acts : List (Act P)) (act : Act P) :
    run scene (acts ++ [act]) = (run scene acts).step act := List.foldl_concat ..

end Vivido.Texture
