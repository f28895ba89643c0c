import RecordStore.Directory
import RecordStore.Region.Query
import RecordStore.Region.Stats
import RecordStore.Settings.Engine
/-!
# The engine — regions, their names, and who is attached

An engine keeps regions. A shared region is registered under a name until
it is deleted from the registry; the connections attached to it then keep
it. A local region belongs to the one connection that made it. Regions are
told apart by their places in the engine; their identifiers only stand in
handles. A call names the attachment it is made through, and is refused
when that connection is not attached or is attached to another region.

A call that changes something gives its answer with the engine after the
call; one that fails leaves the engine as it was, but for the count of
rejected releases of a lock.
-/

namespace RecordStore

/-- An engine. -/
structure Engine where
  settings : EngineSettings := {}
  /-- Every region made so far, each at its place in the order in which they were made. -/
  regions : Array Region := #[]
  /-- The places of the registered regions by name. -/
  named : Directory String Nat := {}
  /-- The places of the regions that connections are attached to. -/
  attachments : Directory ConnectionId Nat := {}
  nextRegion : RegionId := ⟨1⟩
  nextConnection : ConnectionId := ⟨1⟩

namespace Engine

/-- An engine with the settings, in which nothing has happened yet. -/
def start (settings : EngineSettings) : Engine := { settings }

/-- A new engine with the settings, if they are valid. -/
def new (settings : EngineSettings) : Except Error Engine :=
  settings.validate.map fun _ => start settings

/-! ## Attachments -/

/-- The region at a place, with the place. -/
def regionAt? (e : Engine) (place : Nat) : Option (Nat × Region) :=
  e.regions[place]?.map fun r => (place, r)

/-- The region that a connection is attached to, with its place. -/
def attachment? (e : Engine) (connection : ConnectionId) : Option (Nat × Region) :=
  (e.attachments.find? connection).bind e.regionAt?

/-- The region that a connection is attached to. -/
def regionOf? (e : Engine) (connection : ConnectionId) : Option Region :=
  (e.attachment? connection).map Prod.snd

/-- The region that a handle stands for, with its place. -/
def resolve (e : Engine) (db : DbHandle) : Except Error (Nat × Region) :=
  match e.attachment? db.connection with
  | none => .error (.badDatabase .notAttached)
  | some (place, r) =>
    if r.id = db.region then .ok (place, r) else .error (.badDatabase .otherAttachment)

/-- The engine with another region at a place. -/
def putRegion (e : Engine) (place : Nat) (r : Region) : Engine :=
  { e with regions := e.regions.setIfInBounds place r }

/-- Answers a question about the region that a handle stands for. -/
def askRegion {α : Type} (e : Engine) (db : DbHandle) (ask : Region → Except Error α) :
    Except Error α :=
  (e.resolve db).bind fun found => ask found.2

/-- Changes the region that a handle stands for. -/
def onRegion {α : Type} (e : Engine) (db : DbHandle)
    (change : Region → Except Error α × Region) : Except Error α × Engine :=
  match e.resolve db with
  | .error err => (.error err, e)
  | .ok (place, r) =>
    let (answer, r) := change r
    (answer, e.putRegion place r)

/-- Attaches a new connection to the region at a place. -/
def attach (e : Engine) (place : Nat) (r : Region) : DbHandle × Engine :=
  (⟨r.id, e.nextConnection, r.isLocal⟩,
    { e.putRegion place r.attach with
      attachments := e.attachments.insert e.nextConnection place
      nextConnection := e.nextConnection.next })

/-- Detaches a connection from the region at a place. -/
def release (e : Engine) (connection : ConnectionId) (place : Nat) (r : Region) : Engine :=
  { e.putRegion place (r.detach connection) with attachments := e.attachments.erase connection }

/-! ## Regions -/

/-- Makes a region under the next identifier, behind the others. -/
def makeRegion (e : Engine) (name : Option String) (capacity : Nat) : (Nat × Region) × Engine :=
  let r := Region.fresh e.nextRegion name capacity
  ((e.regions.size, r),
    { e with regions := e.regions.push r, nextRegion := e.nextRegion.next })

/-- The region registered under a name, with its place. -/
def registered? (e : Engine) (name : String) : Option (Nat × Region) :=
  (e.named.find? name).bind e.regionAt?

/-- The region registered under a name; one that does not exist yet is made. -/
def shared (e : Engine) (name : String) (capacity : Nat) : (Nat × Region) × Engine :=
  match e.registered? name with
  | some found => (found, e)
  | none =>
    let (found, made) := e.makeRegion (some name) capacity
    (found, { made with named := made.named.insert name found.1 })

/-- Attaches a new connection: to a region of its own, or to a shared region. The size is
that of a region which has to be made, but it must be acceptable in any case. -/
def openDatabase (e : Engine) (name : Option String) (size : Nat) (isLocal : Bool) :
    Except Error DbHandle × Engine :=
  let capacity := e.settings.effectiveSize size
  if capacity < e.settings.minRegionSize then
    (.error (.invalidArgument (.regionTooSmall capacity e.settings.minRegionSize)), e)
  else
    let ((place, r), e) :=
      if isLocal then e.makeRegion none capacity
      else e.shared (e.settings.effectiveName name) capacity
    let (db, e) := e.attach place r
    (.ok db, e)

/-- Takes a shared region out of the registry. -/
def deleteDatabase (e : Engine) (name : Option String) : Except Error Unit × Engine :=
  let name := e.settings.effectiveName name
  if e.named.contains name then
    (.ok (), { e with named := e.named.erase name })
  else
    (.error (.regionNotFound name), e)

/-- Ends the attachment to a local region, and so the region. -/
def deleteLocal (e : Engine) (db : DbHandle) : Except Error Unit × Engine :=
  match e.resolve db with
  | .error err => (.error err, e)
  | .ok (place, r) =>
    if r.isLocal then
      (.ok (), e.release db.connection place r)
    else
      (.error (.invalidArgument .releasedAsLocal), e)

/-- Ends the attachment to a shared region. -/
def detach (e : Engine) (db : DbHandle) : Except Error Unit × Engine :=
  match e.resolve db with
  | .error err => (.error err, e)
  | .ok (place, r) =>
    if r.isLocal then
      (.error (.invalidArgument .releasedAsShared), e)
    else
      (.ok (), e.release db.connection place r)

/-- The use of a region. -/
def stats (e : Engine) (db : DbHandle) : Except Error RegionStats :=
  e.askRegion db fun r => .ok r.stats

/-- The names in the registry, in increasing order. -/
def names (e : Engine) : List String := e.named.keys.mergeSort

end Engine

end RecordStore
