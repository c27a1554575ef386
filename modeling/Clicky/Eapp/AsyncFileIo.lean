import Clicky.Eapp.BundlePath
import Clicky.Eapp.GuestMemory
import Clicky.Eapp.Machine
import Clicky.Lib.Routine

/-! The file imports of a game. What is read is there when the import returns; the game is told by a
callback, which waits in the queue. -/
namespace Clicky
open Routine

def hleInfoFramebuffer : U32 := 0xff203040

/-- The host, and what the environment of the emulator switches on. -/
structure FileEnv where
  bundle : Bundle
  host : Host
  read : FileSystem → PathString → Option (List U8)
  /-- The names of the folders in a folder. There are none where it cannot be listed. -/
  readDir : FileSystem → PathString → List (List Char)
  async3Complete : Bool := false
  skipRserver : Bool := false
  asyncOwner : Bool := false
  startupProgress : Bool := false

/-- The substring test of the source, on a path. -/
def PathString.contains (p part : PathString) : Bool := p.tails.any part.isPrefixOf

def FileEnv.isTetris (env : FileEnv) : Bool := PathString.contains env.bundle.bundleDir "66666".toList

/-- What of the emulator the file imports use, apart from the queue of callbacks. The second counter
counts what is put into the queue. -/
structure FileImports (imageSize : Nat) where
  bus : EappBus imageSize
  fs : FileSystem
  renderState : List U32 := []
  asyncOpenFiles : U32 → Option PathString := fun _ => none
  nextAsyncFileHandle : U32 := 1
  asyncCallbackQueuedCount : BitVec 64 := 0
  dumpedRequests : Finset U32 := ∅

namespace EappBus

variable {imageSize : Nat}

def inPath (b : U8) : Bool :=
  decide (0x20 ≤ b ∧ b ≤ 0x7e) || b == 0x2f || b == 0x5c || b == 0x5f || b == 0x2e

def cStringBytes (b : EappBus imageSize) : Nat → U32 → Attempt String (List U8)
  | 0, _ => pure []
  | count + 1, addr => do
    let byte ← attempt (b.r8 addr)
    if byte = 0 then return []
    else if !inPath byte then failure
    else
      let rest ← b.cStringBytes count (addr + 1)
      return byte :: rest

def tryReadCString (b : EappBus imageSize) (addr : U32) (maxLen : Nat) : Attempt String PathString := do
  if addr = 0 then failure
  else
    let bytes ← b.cStringBytes maxLen addr
    if bytes = [] then failure else return bytes.map fun byte => Char.ofNat byte.toNat

end EappBus

abbrev FileM (imageSize : Nat) := Routine (EappState (FileImports imageSize))

namespace FileM

variable {imageSize : Nat} {α : Type}

/-- The part, if the condition holds. -/
def when (c : Prop) [Decidable c] (part : FileM imageSize Unit) : FileM imageSize Unit :=
  if c then part else pure ()

def onBus (part : Routine (EappBus imageSize) α) : FileM imageSize α :=
  part.focus (fun s => s.rest.bus) fun s bus => { s with rest := { s.rest with bus } }

def find (x : EappBus imageSize → Attempt String α) : FileM imageSize (Option α) := fun s =>
  match (x s.rest.bus).run with
  | .ok found => .ok s found
  | .error message => .panic message

/-- `unwrap_or(0)`. -/
def word (addr : U32) : FileM imageSize U32 := do
  let found ← find (·.readGuestU32 addr)
  return found.getD 0

/-- Words that are only logged. -/
def words : List U32 → FileM imageSize Unit
  | [] => pure ()
  | addr :: addrs => do
    let _ ← word addr
    words addrs

def writeGuestU32 (addr val : U32) : FileM imageSize Bool := onBus (·.writeGuestU32 addr val)

def writeGuestBytes (addr : U32) (bytes : List U8) : FileM imageSize Bool :=
  onBus (·.writeGuestBytes addr bytes)

def onFiles (f : FileImports imageSize → FileImports imageSize) : FileM imageSize Unit :=
  modify fun s => { s with rest := f s.rest }

def fillFramebuffer (color : U32) : FileM imageSize Unit :=
  onFiles fun files => { files with renderState := files.renderState.map fun _ => color }

def pushCall (call : PendingGuestCall) : FileM imageSize Unit :=
  modify fun s => { s with
    pendingGuestCalls := s.pendingGuestCalls ++ [call]
    rest := { s.rest with asyncCallbackQueuedCount := s.rest.asyncCallbackQueuedCount + 1 } }

def addPending (req : U32) : FileM imageSize Unit :=
  modify fun s => { s with asyncPendingRequests := insert req s.asyncPendingRequests }

def removePending (req : U32) : FileM imageSize Unit :=
  modify fun s => { s with asyncPendingRequests := s.asyncPendingRequests.erase req }

def resolveOrCreateHostPath (env : FileEnv) (path : PathString) :
    FileM imageSize (Option PathString) := fun s =>
  match env.bundle.resolveOrCreateHostPath env.host s.rest.fs path with
  | some (hostPath, fs) => .ok { s with rest := { s.rest with fs } } (some hostPath)
  | none => .ok s none

def dumpRequestObject (req : U32) : FileM imageSize Unit := do
  let dumped ← look (·.rest.dumpedRequests)
  when (req ≠ 0 ∧ req ∉ dumped) do
    onFiles fun files => { files with dumpedRequests := insert req files.dumpedRequests }
    words ((List.range 16).map fun field => req + BitVec.ofNat 32 (field * 4))

/-- What is logged of the owner of a request. -/
def dumpOwner (req : U32) : FileM imageSize Unit := do
  let owner ← word (req + 0x08)
  when (owner ≠ 0) do
    words [owner + 0x04, owner + 0x08, owner + 0x0c]
    let ctx ← word (owner + 0x10)
    when (ctx ≠ 0) (words [ctx + 0x120, ctx + 0x124, ctx + 0x164, ctx + 0x168])

/-- A new entry in the table of open files. -/
def openFile (hostPath : PathString) : FileM imageSize U32 := do
  let handle ← look (·.rest.nextAsyncFileHandle)
  onFiles fun files => { files with
    nextAsyncFileHandle := if handle + 1 = 0 then 1 else handle + 1
    asyncOpenFiles := Function.update files.asyncOpenFiles handle (some hostPath) }
  return handle

/-! ### AsyncFileIO, by ordinal -/

section ordinals

variable (env : FileEnv)

/-- 14: read from the start of an open file, with zeros after its end. -/
def readOpenFile (handle buffer len : U32) : FileM imageSize U32 := do
  if handle = 0xffffffff ∨ buffer = 0 then return 0
  else
    let found ← look (·.rest.asyncOpenFiles handle)
    match found with
    | none => return 0
    | some hostPath =>
      let bytes ← look fun s => (env.read s.rest.fs hostPath).getD []
      let n := min bytes.length len.toNat
      let delivered ← writeGuestBytes buffer (bytes.take n ++ List.replicate (len.toNat - n) 0)
      return if delivered then BitVec.ofNat 32 n else 0

/-- 16. -/
def pollOpenFile (handle : U32) : FileM imageSize U32 := do
  let found ← look (·.rest.asyncOpenFiles handle)
  return if found.isSome then 1 else 0

/-- 1. -/
def completeRequest (owner : U32) : FileM imageSize U32 := do
  let req ← word (owner + 0x08)
  words [req + 0x0c, req + 0x10]
  when (env.async3Complete ∧ env.isTetris ∧ owner ≠ 0 ∧ req ≠ 0) do
    let _ ← writeGuestU32 (owner + 0x20) 1
    let _ ← writeGuestU32 (owner + 0x24) 0
    pushCall { pc := 0x1801fbfc, arg0 := owner, arg1 := 0 }
  return 1

/-- 2. -/
def completeControl (owner : U32) : FileM imageSize U32 := do
  let callbackPc ← word (owner + 0x34)
  let callbackCtx ← word (owner + 0x38)
  when (env.async3Complete ∧ env.isTetris ∧ owner ≠ 0 ∧ callbackPc ≠ 0) do
    let _ ← writeGuestBytes (owner + 0x1c) [0]
    pushCall { pc := callbackPc, arg0 := owner, arg1 := callbackCtx }
  return 1

/-- 12: the handle goes to where the game wants it. -/
def openPath (path : PathString) (out : U32) : FileM imageSize U32 := do
  let resolved ← resolveOrCreateHostPath env path
  match resolved with
  | none => return 8
  | some hostPath =>
    let handle ← openFile hostPath
    when (out ≠ 0) do
      let _ ← writeGuestU32 out handle
    return 0

/-- 0. -/
def openStream (path : PathString) (owner : U32) : FileM imageSize U32 := do
  let resolved ← resolveOrCreateHostPath env path
  match resolved with
  | none => return 0
  | some hostPath =>
    let bytes ← look fun s => (env.read s.rest.fs hostPath).getD []
    when (env.async3Complete ∧ owner ≠ 0) do
      let _ ← writeGuestU32 (owner + 0x20) 0
      let _ ← writeGuestU32 (owner + 0x24) (BitVec.ofNat 32 bytes.length)
      pushCall { pc := 0x1801fbfc, arg0 := owner, arg1 := 0 }
      when env.startupProgress (words [owner + 0x08])
    return 1

/-- The bytes of a file go to the buffer of a request, as many as it asks for, or all. -/
def deliverFile (hostPath : PathString) (req dest want : U32) : FileM imageSize Unit := do
  let found ← look fun s => env.read s.rest.fs hostPath
  match found with
  | none => pure ()
  | some bytes =>
    let n := min bytes.length (if want ≠ 0 then want.toNat else bytes.length)
    let shouldDeliver := !(env.skipRserver && PathString.contains hostPath "rserver.bin".toList)
    let bytesDelivered ← (if shouldDeliver ∧ dest ≠ 0 then writeGuestBytes dest (bytes.take n)
      else pure false : FileM imageSize Bool)
    when (dest ≠ 0 ∧ (bytesDelivered ∨ !shouldDeliver)) do
      when env.async3Complete do
        let _ ← writeGuestU32 (req + 0x20) 1
        let _ ← writeGuestU32 (req + 0x24) (BitVec.ofNat 32 n)
      when env.asyncOwner (dumpOwner req)

/-- 3. The request is pending until its callback is called, if it has one. -/
def requestFile (path : PathString) (req : U32) : FileM imageSize U32 := do
  when (req ≠ 0) (addPending req)
  dumpRequestObject req
  let resolved ← resolveOrCreateHostPath env path
  match resolved with
  | none =>
    removePending req
    return 0
  | some hostPath =>
    let dest ← word (req + 0x14)
    let want ← word (req + 0x18)
    let callbackPc ← word (req + 0x34)
    let callbackCtx ← word (req + 0x38)
    deliverFile env hostPath req dest want
    if callbackPc ≠ 0 then pushCall { pc := callbackPc, arg0 := req, arg1 := callbackCtx }
    else removePending req
    return 1

/-- 7: only the number of folders is reported. -/
def listFolders (path : PathString) (req : U32) : FileM imageSize U32 := do
  if req = 0 then return 0
  else
    let callbackPc ← word (req + 0x34)
    let callbackCtx ← word (req + 0x38)
    let resolved ← resolveOrCreateHostPath env path
    match resolved with
    | none => return 0
    | some hostPath =>
      let entries ← look fun s => env.readDir s.rest.fs hostPath
      let _ ← writeGuestU32 (req + 0x20) 0
      let _ ← writeGuestU32 (req + 0x24) (BitVec.ofNat 32 entries.length)
      when (callbackPc ≠ 0) (pushCall { pc := callbackPc, arg0 := req, arg1 := callbackCtx })
      return 1

/-- The path is in one of the first two arguments. -/
def findPath (args : GuestArgs) : FileM imageSize (Option PathString) := do
  let first ← find (·.tryReadCString args.r0 256)
  match first with
  | some path => return some path
  | none => find (·.tryReadCString args.r1 256)

def handleAsyncFileIoImport (ordinal : U32) (args : GuestArgs) : FileM imageSize U32 := do
  if ordinal = 14 then readOpenFile env args.r0 args.r1 args.r2
  else if ordinal = 16 then pollOpenFile args.r0
  else if ordinal = 1 then completeRequest env args.r0
  else if ordinal = 2 then completeControl env args.r0
  else
    let found ← findPath args
    match found with
    | none => return 0
    | some path =>
      fillFramebuffer hleInfoFramebuffer
      if ordinal = 12 then openPath env path args.r2
      else if ordinal = 0 then openStream env path args.r3
      else if ordinal = 3 then requestFile env path args.r2
      else if ordinal = 7 then listFolders env path args.r3
      else return 1

/-- The handle is not given to the game. -/
def handleFilesystemImport (ordinal : U32) (args : GuestArgs) : FileM imageSize U32 := do
  let found ← find (·.tryReadCString args.r1 256)
  if ordinal = 0 then
    match found with
    | none => return 1
    | some path =>
      let resolved ← resolveOrCreateHostPath env path
      match resolved with
      | none => return 1
      | some hostPath =>
        let there ← look fun s => s.rest.fs.exists? env.bundle.cwd hostPath
        when there do
          let _ ← openFile hostPath
        return 1
  else return 0

end ordinals

end FileM
end Clicky
