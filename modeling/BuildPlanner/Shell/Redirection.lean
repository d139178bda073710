import BuildPlanner.Shell.Source

/-!
# Redirections

A redirection opens a file, a device or a text for a channel, or makes a channel what another one
is. Those of a command end with it, and it does not run if one of them fails.
-/

namespace BuildPlanner.Shell

open Act

/-! ## Opening -/

/-- What a device at a location stands for, and whether it is open. -/
def device? (channels : List (Nat × Endpoint)) : Location → Option (Option Endpoint)
  | ["dev", "null"] => some (some .nothing)
  | ["dev", "full"] => some (some .full)
  | ["dev", "stdin"] => some (channels.lookup inputChannel)
  | ["dev", "stdout"] => some (channels.lookup outputChannel)
  | ["dev", "stderr"] => some (channels.lookup errorChannel)
  | ["dev", "fd", number] => (count? number).map (List.lookup · channels)
  | _ => none

/-- What is said about a file that cannot be opened. -/
def openReason (missing : String) : TreeFault → String
  | .notFound | .notDirectory => missing
  | fault => fault.reason

/-- What the file that a path leads to is opened as to be read; nothing is read from a directory. -/
def openingAt (h : Host) (p : Path) : Except TreeFault Opening :=
  match h.spot p with
  | .error fault => .error fault
  | .ok ⟨_, none⟩ => .error .notFound
  | .ok ⟨_, some .directory⟩ => .ok (.text [])
  | .ok ⟨location, some (.file _)⟩ => .ok (.file location .read 0)

/-- What a channel's end is opened as once more to be read: a file is read from its start. -/
def openingAgain (endpoint : Endpoint) : Act Opening := do
  match endpoint with
  | .opening number =>
    match (← get).openings[number]? with
    | some (.file location _ _) => return .file location .read 0
    | some (.text rest) =>
      advance number rest.length
      return .text rest
    | none => return .text []
  | _ => return .text []

/-- What a file that a word names is opened as to be read. -/
def openingOf (target : String) (p : Path) : Act Opening := do
  let s ← get
  match device? s.channels (s.host.namedLocation p), openingAt s.host p with
  | some (some endpoint), _ => openingAgain endpoint
  | _, .ok opening => return opening
  | _, .error fault =>
    let reason := openReason "No such file" fault
    fail s!"cannot open {target}: {reason}"

/-- Opens a file to be read. -/
def openToRead (target : String) : Act Endpoint := do
  opened (← openingOf target (pathOf target))

/-- Opens a file to be written; one that is written anew holds nothing. -/
def openAt (mode : RedirectMode) (target : String) (location : Location) (old : Option File) :
    Act Endpoint := do
  let s ← get
  if s.has 'C' && mode == .replace && old.isSome then
    fail s!"cannot create {target}: File exists"
  let file := old.getD ⟨.text "", s.host.clock, false⟩
  let keeps := mode == .append || mode == .make
  let file := if keeps then file else { file with content := .text "", modified := s.host.clock }
  set { s with host := s.host.put location (.file file) }
  opened (.file location mode 0)

/-- Opens a file to be written that a word names. -/
def openToWrite (mode : RedirectMode) (target : String) : Act Endpoint := do
  match (← get).host.fileSpot (pathOf target) with
  | .error fault =>
    let reason := openReason "Directory nonexistent" fault
    fail s!"cannot create {target}: {reason}"
  | .ok spot => openAt mode target spot.location (spot.node.bind Node.file?)

/-- Opens what a channel is open on once more: a file is opened anew. -/
def openAgain (mode : RedirectMode) (target : String) (endpoint : Endpoint) : Act Endpoint := do
  let s ← get
  let opening? := match endpoint with
    | .opening number => s.openings[number]?
    | _ => none
  match opening? with
  | some (.file location _ _) =>
    if mode == .read then opened (.file location mode 0)
    else openAt mode target location ((s.host.tree.node? location).bind Node.file?)
  | _ => return endpoint

/-- Opens what a redirection of a file names. -/
def openTarget (mode : RedirectMode) (target : String) : Act Endpoint := do
  let s ← get
  match device? s.channels (s.host.namedLocation (pathOf target)) with
  | some (some endpoint) => openAgain mode target endpoint
  | _ => if mode == .read then openToRead target else openToWrite mode target

/-! ## Channels -/

/-- Makes a channel what something is that is open, or closes it. -/
def setChannel (channel : Nat) (endpoint : Option Endpoint) : Act Unit := modify fun s =>
  let others := s.channels.filter (·.1 != channel)
  { s with channels := (endpoint.map ((channel, ·))).toList ++ others }

/-- The channel that a word names; a sign stands for none. -/
def channelIn (word : String) : Act (Option Nat) := do
  match word.toList with
  | ['-'] => return none
  | [digit] => if digit.isDigit then return some (decimal [digit]) else refuse
  | _ => refuse
where
  /-- Fails because the word names none; this is told of the line that has been read to. -/
  refuse : Act (Option Nat) := do
    modify fun s => { s with line := s.readLine }
    fail "Syntax error: Bad fd number"

/-- Makes a channel what another one is. -/
def copyChannel (channel : Nat) (other : Option Nat) : Act Unit := do
  match other with
  | none => setChannel channel none
  | some other =>
    if other != channel then
      let endpoint := (← get).channels.lookup other
      setChannel channel endpoint
      if endpoint.isNone then fail s!"{other}: Bad file descriptor"

/-- A redirection of which it is known what its target stands for, if this is looked at before the
redirection is done. -/
abbrev Redirected : Type := Redirect × Option String

/-- The texts that the targets of redirections stand for. Texts that the script holds wait until
their channels are opened. -/
def targetsOf (runner : Runner) (redirects : List Redirect) : Act (List Redirected) :=
  redirects.mapM fun r => do
    if r.mode == .text then return (r, none)
    let target ← textOfWord (runInside runner) r.target
    if r.mode == .channel then discard (channelIn target)
    return (r, some target)

/-- Does what a redirection says. -/
def redirect (runner : Runner) (redirected : Redirected) : Act Unit := do
  let (r, target) := redirected
  let target ← match target with
    | some target => pure target
    | none => textOfQuoted (runInside runner) r.target
  match r.mode with
  | .channel => copyChannel r.channel (← channelIn target)
  | .text => setChannel r.channel (some (← opened (.text target.toList)))
  | mode => setChannel r.channel (some (← openTarget mode target))

/-- Does what redirections say. The answer is whether all could be done. -/
def redirectAll (runner : Runner) (targets : List Redirected) : Act Bool := fun s =>
  match (targets.forM (redirect runner) : Act Unit) s with
  | (.error .fail, after) => (.ok false, after)
  | (.error jump, after) => (.error jump, after)
  | (.ok _, after) => (.ok true, after)

/-- The channels with some of them as they were. -/
def restored (redirects : List Redirect) (old now : List (Nat × Endpoint)) :
    List (Nat × Endpoint) :=
  let isChanged (channel : Nat) : Bool := redirects.any (·.channel == channel)
  old.filter (isChanged ·.1) ++ now.filter (!isChanged ·.1)

/-- Does something with redirections, which end with it, or else only if it jumps; `refused` is done
if one of them fails. -/
def withRedirects (runner : Runner) ( areKept : Bool) (redirects : List Redirect)
    (refused act : Act Unit) : Act Unit := do
  let targets ← targetsOf runner redirects
  fun s =>
    let (result, after) := (do
      if ← redirectAll runner targets then act else refused : Act Unit) s
    match result, areKept with
    | .ok _, true => (result, after)
    | _, _ => (result, { after with channels := restored redirects s.channels after.channels })

end BuildPlanner.Shell
