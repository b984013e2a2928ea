import Mathlib.Logic.Function.Basic
import Cinnabar.Library.Interruption

/-! # The disk an update works on -/

namespace Cinnabar.Updates

section Journal

/-- A file-system object, told apart by device and inode. -/
structure Identity where
  device : UInt64
  inode : UInt64
deriving DecidableEq

def splitOnce (text : List Char) : Option (List Char × List Char) :=
  match text.dropWhile (· ≠ ':') with
  | [] => none
  | _::rest => some (text.takeWhile (· ≠ ':'),rest)

def dropPlus : List Char → List Char
  | '+'::digits => digits
  | digits => digits

def parseU64 (text : List Char) : Option UInt64 :=
  let digits := dropPlus text
  let value := Nat.ofDigitChars 10 digits 0
  if digits ≠ [] ∧ digits.all Char.isDigit ∧ value<UInt64.size then some (UInt64.ofNat value)
  else none

def printU64 (value : UInt64) : List Char := Nat.toDigits 10 value.toNat

def record (identity : Identity) : List Char :=
  printU64 identity.device ++ ':'::printU64 identity.inode

variable {value : UInt64}

lemma isDigit_of_mem_printU64 {c : Char} (h : c ∈ printU64 value) : c.isDigit :=
  Nat.isDigit_of_mem_toDigits (by decide) (by decide) h

lemma dropPlus_printU64 : dropPlus (printU64 value) = printU64 value := by
  unfold dropPlus
  split
  · rename_i digits heq
    have hplus : ('+').isDigit=true := isDigit_of_mem_printU64 (by rw [heq]; exact .head _)
    exact absurd hplus (by decide)
  · rfl

lemma parseU64_printU64 : parseU64 (printU64 value) = some value := by
  have hdigits : ∀ c ∈ printU64 value, c.isDigit := fun _=>isDigit_of_mem_printU64
  have hne : printU64 value ≠ [] := Nat.toDigits_ne_nil
  have hvalue : Nat.ofDigitChars 10 (printU64 value) 0=value.toNat := Nat.ofDigitChars_ten_toDigits
  unfold parseU64
  dsimp only
  rw [dropPlus_printU64,hvalue,if_pos ⟨hne,List.all_eq_true.2 hdigits,value.toNat_lt⟩, UInt64.ofNat_toNat]

lemma splitOnce_record (identity : Identity) :
    splitOnce (record identity) = some (printU64 identity.device,printU64 identity.inode) := by
  have hno : ∀ c ∈ printU64 identity.device, (decide (c ≠ ':')) = true := by
    intro c hc
    have hdigit := isDigit_of_mem_printU64 hc
    exact decide_eq_true fun heq=>absurd (heq ▸ hdigit) (by decide)
  unfold splitOnce record
  rw [List.dropWhile_append_of_pos hno,List.takeWhile_append_of_pos hno]
  simp

end Journal

/-- An installation as it is made: an image, or a directory with its entries. -/
structure Payload where
  identity : Identity
  isDirectory : Bool
  entries : ℕ
deriving DecidableEq

/-- What is left of one. -/
structure Installation extends Payload where
  removed : ℕ
deriving DecidableEq

def Payload.whole (payload : Payload) : Installation := { payload with removed := 0 }

inductive Place where
  | target
  | backup
  | candidate
  | failed
deriving DecidableEq

/-- The target came to hold one installation in place of another. -/
structure Promotion where
  installed : Installation
  previous : Installation
deriving DecidableEq

structure Volume where
  place : Place → Option Installation
  preparing : Option (List Char) := none
  started : Bool := false
  /-- History: the objects made, the promotions (latest first), the installations a receipt was
  created for, and those that gave the target back to an earlier one. -/
  initial : Installation
  candidates : List Installation := []
  promotions : List Promotion := []
  confirmed : List Identity := []
  rolledBack : List Identity := []

inductive OsError where
  | notFound
  | alreadyExists
  | notEmpty
  | other
deriving DecidableEq

inductive InstallError where
  | os (error : OsError)
  | parse
  | message (text : String)
  | context (text : String) (cause : InstallError)
  | untouched (cause : InstallError)
  | recovering (cause recovery : InstallError)
deriving DecidableEq

abbrev InstallerM := Steps InstallError Volume

namespace Volume

def installed (payload : Payload) : Volume where
  place := Function.update (fun _=>none) .target (some payload.whole)
  initial := payload.whole

variable (volume : Volume)

def held : List Identity :=
  volume.promotions.map (·.installed.identity) ++ [volume.initial.identity]

/-- Every object made so far. -/
def used : List Identity :=
  volume.candidates.map (·.identity) ++ [volume.initial.identity]

def relocate (place : Place → Option Installation) : Volume :=
  match volume.place .target, place .target with
  | some outgoing, some incoming =>
    if outgoing.identity=incoming.identity then { volume with place := place }
    else if incoming.identity ∈ volume.held then
      { volume with place := place, rolledBack := outgoing.identity::volume.rolledBack }
    else { volume with place := place, promotions := ⟨incoming,outgoing⟩ :: volume.promotions }
  | _, _ => { volume with place := place }

end Volume

section Changes

/-- A rename replaces a file by a file and an empty directory by a directory. -/
def Installation.yieldsTo (occupant incoming : Installation) : Bool :=
  if incoming.isDirectory then occupant.isDirectory && occupant.entries=0
  else !occupant.isDirectory

def move (source destination : Place) (volume : Volume) : Except InstallError Volume :=
  match volume.place source with
  | none => .error (.os .notFound)
  | some moved =>
    if (volume.place destination).all fun occupant=>occupant.yieldsTo moved then
      .ok (volume.relocate (Function.update (Function.update volume.place source none) destination (some moved)))
    else .error (.os .notEmpty)

def swapNames (left right : Place) (volume : Volume) : Except InstallError Volume :=
  match volume.place left, volume.place right with
  | some first, some second =>
    .ok (volume.relocate (Function.update (Function.update volume.place left (some second)) right (some first)))
  | _, _ => .error (.os .notFound)

section

variable (volume : Volume)

/-- A new work directory. -/
def Volume.opened : Volume := { volume with
  place := Function.update (Function.update volume.place .candidate none) .failed none }

def openWork : Except InstallError Volume := .ok volume.opened

/-- A new object in the work directory; no identity is given out twice. -/
def create (payload : Payload) (volume : Volume) : Except InstallError Volume :=
  if payload.identity ∈ volume.used then .error (.os .alreadyExists)
  else
    .ok { volume with
      place := Function.update volume.place .candidate (some payload.whole)
      candidates := payload.whole::volume.candidates }

def unlink (place : Place) (volume : Volume) : Except InstallError Volume :=
  match volume.place place with
  | none => .error (.os .notFound)
  | some _ => .ok { volume with place := Function.update volume.place place none }

/-- One entry below a directory goes. -/
def unlinkEntry (place : Place) (volume : Volume) : Except InstallError Volume :=
  match volume.place place with
  | none => .error (.os .notFound)
  | some found =>
    .ok { volume with
      place := Function.update volume.place place
        (some { found with entries := found.entries-1, removed := found.removed+1 }) }

def createJournal : Except InstallError Volume :=
  match volume.preparing with
  | some _ => .error (.os .alreadyExists)
  | none => .ok { volume with preparing := some [] }

def writeJournal (text : List Char) (volume : Volume) : Except InstallError Volume :=
  .ok { volume with preparing := volume.preparing.map (· ++ text) }

def unlinkJournal : Except InstallError Volume :=
  match volume.preparing with
  | none => .error (.os .notFound)
  | some _ => .ok { volume with preparing := none }

def createReceipt : Except InstallError Volume :=
  if volume.started then .error (.os .alreadyExists)
  else
    .ok { volume with
      started := true
      confirmed := (volume.place .target).toList.map (·.identity) ++ volume.confirmed }

def unlinkReceipt : Except InstallError Volume :=
  if volume.started then .ok { volume with started := false } else .error (.os .notFound)

/-- A change beside the modelled disk: the update directory made, a file flushed. -/
def elsewhere : Except InstallError Volume := .ok volume

end

end Changes

end Cinnabar.Updates

/-! # Swaps, confirmations and recovery

The installer's programs, each change of the disk a step of its own.  Questions
asked of the disk take no step: a cut there leaves what a cut before the next
change leaves.
-/

namespace Cinnabar.Updates

section Asking

def placeExists (place : Place) : InstallerM Bool :=
  inspect fun volume=>(volume.place place).isSome

def receiptExists : InstallerM Bool := inspect (·.started)

def osFailure : InstallError := .os .other

def failWith {α : Type} (text : String) : InstallerM α := halt (.message text)

def ensure (condition : Bool) (text : String) : InstallerM PUnit :=
  if condition then pure ⟨⟩ else failWith text

def symlinkMetadata (place : Place) : InstallerM Installation := do
  match ← inspect fun volume=>volume.place place with
  | some found => pure found
  | none => halt (.os .notFound)

/-- An error is given a text, a cut is not. -/
def withContext {α : Type} (text : String) (program : InstallerM α) : InstallerM α := do
  match ← attempt program with
  | .ok a => pure a
  | .error error => halt (.context text error)

end Asking

section Journal

/-- The record is written a piece at a time. -/
def prepareExchange : InstallerM PUnit := do
  let found ← symlinkMetadata .target
  perform osFailure createJournal
  perform osFailure (writeJournal (printU64 found.identity.device))
  perform osFailure (writeJournal [':'])
  perform osFailure (writeJournal (printU64 found.identity.inode))
  perform osFailure elsewhere

def parseRecord (text : List Char) : Except InstallError Identity :=
  match splitOnce text with
  | none => .error (.message "invalid exchange journal")
  | some (device,inode) =>
    match parseU64 device, parseU64 inode with
    | some device, some inode => .ok ⟨device,inode⟩
    | _, _ => .error .parse

lemma parseRecord_record (identity : Identity) : parseRecord (record identity) = .ok identity := by
  unfold parseRecord
  rw [splitOnce_record]
  dsimp only
  rw [parseU64_printU64,parseU64_printU64]

/-- Whether the target is the installation the journal records. -/
def beforeExchange : InstallerM Bool := do
  match ← inspect (·.preparing) with
  | none => pure false
  | some text =>
    match parseRecord text with
    | .error error => halt error
    | .ok expected => do
      let found ← symlinkMetadata .target
      pure (found.identity=expected)

def clearPreparation : InstallerM PUnit := do
  match ← attempt (perform osFailure unlinkJournal) with
  | .ok _ => pure ⟨⟩
  | .error (.os .notFound) => pure ⟨⟩
  | .error error => halt error

end Journal

section Removal

/-- What is below a directory goes first. -/
def removeDirAll (place : Place) : ℕ → InstallerM PUnit
  | 0 => perform osFailure (unlink place)
  | entries+1 => do
    perform osFailure (unlinkEntry place)
    removeDirAll place entries

def remove (place : Place) : InstallerM PUnit := do
  let found ← symlinkMetadata place
  if found.isDirectory then removeDirAll place found.entries
  else perform osFailure (unlink place)

end Removal

section Confirmation

def confirmStart : InstallerM PUnit := do
  match ← attempt (perform osFailure createReceipt) with
  | .ok _ => perform osFailure elsewhere
  | .error (.os .alreadyExists) => pure ⟨⟩
  | .error error => halt error

def removeConfirmed : InstallerM PUnit := do
  if ← placeExists .backup then
    withContext "remove confirmed previous installation" (remove .backup)
  else pure ⟨⟩

def cleanupConfirmedBackup : InstallerM PUnit := do
  if ← receiptExists then
    ensure (← placeExists .target) "confirmed replacement is missing; keep previous installation"
    removeConfirmed
    clearPreparation
    withContext "remove startup confirmation" (perform osFailure unlinkReceipt)
  else
    if ← placeExists .backup then pure ⟨⟩ else clearPreparation

end Confirmation

section Swapping

def exchange : InstallerM PUnit := perform osFailure (swapNames .target .backup)

def retainReplacement : InstallerM PUnit := do
  match ← attempt (perform osFailure (move .candidate .backup)) with
  | .ok _ => pure ⟨⟩
  | .error error => do
    clearPreparation
    halt (.context "prepare replacement beside installation" error)

def installReplacement : InstallerM PUnit := do
  match ← attempt exchange with
  | .ok _ => pure ⟨⟩
  | .error error => do
    withContext "retain uninstalled replacement" (perform osFailure (move .backup .candidate))
    clearPreparation
    halt (.context "install update" error)

/-- The candidate takes the target's place and leaves the previous installation at the backup. -/
def swap : InstallerM PUnit := do
  cleanupConfirmedBackup
  ensure (!(← placeExists .backup)) "previous installation is still retained"
  prepareExchange
  retainReplacement
  installReplacement

def rollback : InstallerM PUnit := do
  withContext "restore previous installation" exchange
  withContext "move failed new installation aside" (perform osFailure (move .backup .failed))
  clearPreparation

end Swapping

section Recovering

def nothingRetained : InstallerM Bool := do
  if ← placeExists .backup then receiptExists else pure true

def targetRecorded : InstallerM Bool := do
  if ← placeExists .target then beforeExchange else pure false

def bringBack : InstallerM PUnit := do
  if ← placeExists .target then rollback
  else withContext "restore missing installation" (perform osFailure (move .backup .target))

/-- Puts the previous installation back unless the new one was confirmed. -/
def restoreWithLease : InstallerM Bool := do
  if ← nothingRetained then pure false
  else if ← targetRecorded then do
    remove .backup
    clearPreparation
    pure false
  else do
    perform osFailure openWork
    bringBack
    clearPreparation
    pure true

variable (leaseFree : Bool)

def restore : InstallerM Bool :=
  if leaseFree then restoreWithLease
  else halt (.context "another updater is recovering this installation" osFailure)

def probeRollback : InstallerM Bool := do
  if ← nothingRetained then pure false
  else if ← targetRecorded then pure false
  else pure leaseFree

def needsRollback : InstallerM Bool := do
  match ← attempt (probeRollback leaseFree) with
  | .ok needed => pure needed
  | .error _ => pure false

def confirmReplaced : InstallerM PUnit := do
  if ← placeExists .backup then confirmStart else pure ⟨⟩

def confirm (observed : Identity) : InstallerM PUnit := do
  perform osFailure elsewhere
  let current ← symlinkMetadata .target
  if current.identity=observed then do
    confirmReplaced
    cleanupConfirmedBackup
  else pure ⟨⟩

end Recovering

section Applying

/-- The verified artifact becomes a candidate in a new work directory. -/
def swapIn (payload : Payload) : InstallerM PUnit := do
  perform osFailure openWork
  perform osFailure (create payload)
  swap

/-- What the signed stage, the installed build and the platform say, the object made of the
verified artifact, and whether the client launched in the end starts. -/
structure Request where
  authenticated : Bool
  newer : Bool
  permitted : Bool
  payload : Payload
  starts : Bool
deriving DecidableEq

variable (request : Request)

/-- Ends without a swap where the installed build is not older. -/
def replaceInstallation : InstallerM Bool := do
  ensure request.authenticated "unverified stage"
  if request.newer then do
    ensure request.permitted "install is not writable; use Download update"
    let _ ← symlinkMetadata .target
    swapIn request.payload
    pure true
  else pure false

/-- How far an update came. -/
structure Outcome where
  touched : Bool
  started : Bool
  result : Except InstallError PUnit

def applyUpdate : InstallerM Outcome := do
  match ← attempt (replaceInstallation request) with
  | .error error => pure ⟨false,false,.error error⟩
  | .ok false =>
    pure ⟨false,request.starts, if request.starts then .ok ⟨⟩ else .error (.message "failed startup")⟩
  | .ok true =>
    if request.starts then do
      let result ← attempt do
        confirmStart
        cleanupConfirmedBackup
      pure ⟨true,true,result⟩
    else do
      match ← attempt rollback with
      | .error error => pure ⟨true,false,.error error⟩
      | .ok _ =>
        pure ⟨true,false,.error (.context
          "new version did not start; previous version restored" (.message "failed startup"))⟩

def afterExit : InstallerM PUnit := do
  let outcome ← applyUpdate request
  match outcome.result with
  | .ok _ => pure ⟨⟩
  | .error error =>
    if !outcome.touched then halt (.untouched error)
    else if !outcome.started then do
      match ← attempt restoreWithLease with
      | .ok _ => halt error
      | .error recovery => halt (.recovering error recovery)
    else halt error

end Applying

end Cinnabar.Updates
