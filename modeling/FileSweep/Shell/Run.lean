import FileSweep.Shell.Builtins
import FileSweep.Shell.Expand
import FileSweep.Shell.Programs

/-! Running scripts and the programs that the host provides. Every step uses up fuel, so
that a script that would run for ever ends here too. -/
namespace FileSweep
namespace Shell

/-- The signal that the arguments of `kill` name, when it is meant for the script itself. -/
def killOwn? : List (List Char) → Option Nat
  | [pid] => if pid = processId then some 15 else none
  | ['-', 's'] :: name :: [pid] => if pid = processId then signalNumber? name else none
  | [('-' :: signal), pid] => if pid = processId then signalNumber? signal else none
  | _ => none

def setChannel (s : State) (fd : Nat) (c : Channel) : State :=
  match fd with
  | 1 => { s with stdout := c }
  | 2 => { s with stderr := c }
  | _ => s

def channelOf (s : State) (fd : List Char) : Channel :=
  match fd with
  | ['1'] => s.stdout
  | ['2'] => s.stderr
  | _ => .nowhere

/-- Why a file cannot be reached, with the words for one that does not exist. -/
def reasonOf (missing : String) : AccessError → String
  | .os .noEntry _ => missing
  | .os .notDirectory _ => missing
  | .os e _ => e.text
  | .unwritten e => e.text
  | _ => missing

/-- Opens a file for a redirection; the error is the state after the complaint. -/
def openTarget (s : State) (fd : Nat) (path : String) (mode : WriteMode) :
    Except State State :=
  if path = "/dev/null" then .ok (setChannel s fd .nowhere)
  else
    match s.host.openWrite path mode with
    | .ok (host, names) => .ok (setChannel { s with host } fd (.file names))
    | .error e =>
      .error (s.complainHere ("cannot create " ++ path ++ ": " ++
        reasonOf "Directory nonexistent" e) 2)

/-- Carries out redirections in order, as long as each file can be opened. -/
def redirect (run : State → List Char → State × List Char) (s : State) :
    List Redirect → Except State State
  | [] => .ok s
  | r :: rs =>
    let (s, text) := expandOne run s r.target
    let path := String.ofList text
    let opened : Except State State := match r.kind with
      | .duplicate => .ok (setChannel s r.fd (channelOf s text))
      | .write => openTarget s r.fd path .truncate
      | .append => openTarget s r.fd path .append
      | .read =>
        match s.host.readBytes path with
        | .ok bytes => .ok { s with input := bytes }
        | .error e =>
          .error (s.complainHere ("cannot open " ++ path ++ ": " ++ reasonOf "No such file" e) 2)
    match opened with
    | .error s => .error s
    | .ok s => redirect run s rs

def restore (outer inner : State) : State :=
  { inner with stdout := outer.stdout, stderr := outer.stderr }

/-- Puts the input of an outer state back where a redirection has changed it. -/
def restoreInput (outer inner : State) (redirects : List Redirect) : State :=
  let inner := restore outer inner
  if redirects.any fun r => r.kind = .read then { inner with input := outer.input } else inner

/-- What the shell is asked to run: a text, its name and parameters, and whether a failing
command ends it. -/
structure Request where
  text : List Char
  name : List Char
  params : List (List Char) := []
  fromInput : Bool := false
  strict : Bool := false

def readRequest (h : Host) (input : List UInt8) (called : List Char) (strict : Bool) :
    List (List Char) → Except String Request
  | [] => .ok { text := Text.decodeLossyChars input, name := called, fromInput := true, strict }
  | ('-' :: flags) :: rest =>
    let strict := strict || flags.contains 'e'
    if flags.contains 'c' then
      match rest with
      | text :: name :: params => .ok { text, name, params, strict }
      | [text] => .ok { text, name := called, strict }
      | [] => .error ": 0: -c requires an argument"
    else readRequest h input called strict rest
  | file :: params =>
    match h.readBytes (String.ofList file) with
    | .ok bytes => .ok { text := Text.decodeLossyChars bytes, name := file, params, strict }
    | .error _ => .error (": 0: cannot open " ++ String.ofList file ++ ": No such file")

/-- The status of the script after a process, with what is said if a signal has ended it. -/
def settle (s t : State) : Flow → State
  | .signalled n =>
    let s := s.absorb t
    if (signalText n).isEmpty then { s with status := 128 + (n : Int) }
    else s.complain (signalText n) (128 + (n : Int))
  | _ => { s.absorb t with status := t.status }

/-- The commands before which assignments are kept. -/
def specialNames : List String :=
  [":", ".", "break", "continue", "eval", "exec", "exit", "export", "readonly", "return", "set",
    "shift", "trap", "unset"]

def readAssignments : List (List Char) → List (List Char × List Char) × List (List Char)
  | [] => ([], [])
  | arg :: args =>
    let name := arg.takeWhile (· != '=')
    match arg.drop name.length with
    | _ :: value =>
      let (assigned, command) := readAssignments args
      ((name, value) :: assigned, command)
    | [] => ([], arg :: args)

def environmentText (e : Environment) : List UInt8 :=
  e.values.flatMap fun v => Text.encode (v.1 ++ "=" ++ v.2 ++ "\n")

/-- Counts down the loops that a `break` or `continue` reaches out of. -/
def outer (loops : Nat) (again : Nat → Flow) : Flow :=
  if loops ≤ 1 then .go else again (loops - 1)

mutual

def run : Nat → Script → State → State × Flow
  | 0, _, s => (s, .leave)
  | fuel + 1, script, s =>
    match script with
    | .skip => (s, .go)
    | .simple line assignments words redirects =>
      runSimple fuel assignments words redirects { s with line := line - s.linesAbove }
    | .seq first second =>
      match run fuel first s with
      | (s, .go) => run fuel second s
      | other => other
    | .both first second =>
      match runTested fuel first s with
      | (s, .go) => if s.status = 0 then run fuel second s else (s, .go)
      | other => other
    | .either first second =>
      match runTested fuel first s with
      | (s, .go) => if s.status = 0 then (s, .go) else run fuel second s
      | other => other
    | .negate body =>
      match runTested fuel body s with
      | (s, .go) => ({ s with status := if s.status = 0 then 1 else 0 }, .go)
      | other => other
    | .pipe first second =>
      let start := { s with out := [], stdout := .out }
      match run fuel first start with
      | (left, .signalled n) => (left, .signalled n)
      | (left, _) =>
        let between := { s.absorb left with input := left.out.reverse, out := s.out }
        match run fuel second between with
        | (right, .signalled n) => (right, .signalled n)
        | (right, _) =>
          ({ s.absorb right with input := left.input, status := right.status }, .go)
    | .loop untilTrue condition body =>
      let (t, flow) := runLoop fuel untilTrue condition body { s with loops := s.loops + 1 }
      ({ t with loops := s.loops }, flow)
    | .branch condition yes no =>
      match runTested fuel condition s with
      | (s, .go) =>
        if s.status = 0 then run fuel yes s else run fuel no { s with status := 0 }
      | other => other
    | .each name words body =>
      let (s, fields) := match words with
        | some ws => expandWords (substitute fuel) s ws
        | none => (s, s.params)
      if s.broken then (s, .leave)
      else
        let (t, flow) := runEach fuel name fields body { s with status := 0, loops := s.loops + 1 }
        ({ t with loops := s.loops }, flow)
    | .choose subject arms =>
      let (s, text) := expandOne (substitute fuel) s subject
      let chosen := arms.find? fun arm =>
        arm.1.any fun w =>
          Glob.matchesItems (expandPattern ⟨substitute fuel, false⟩ expansionFuel s w).2 text
      match chosen with
      | some (_, body) => run fuel body { s with status := 0 }
      | none => ({ s with status := 0 }, .go)
    | .group body redirects =>
      match redirect (substitute fuel) s redirects with
      | .error failed => (restore s failed, .go)
      | .ok inner =>
        let (inner, flow) := run fuel body inner
        (restoreInput s inner redirects, flow)
    | .subshell body redirects =>
      match redirect (substitute fuel) s redirects with
      | .error failed => (restore s failed, .go)
      | .ok inner =>
        match run fuel body { inner with traps := [] } with
        | (inner, .signalled n) => (inner, .signalled n)
        | (inner, _) =>
          (restoreInput s { s.absorb inner with status := inner.status } redirects, .go)
    | .define line name body =>
      ({ s with functions := (name, line, body) :: s.functions.filter (fun f => f.1 != name),
                status := 0 }, .go)

/-- Runs a script whose failure decides something and so never ends the script around it. -/
def runTested : Nat → Script → State → State × Flow
  | 0, _, s => (s, .leave)
  | fuel + 1, script, s =>
    let (t, flow) := run fuel script { s with tested := true }
    ({ t with tested := s.tested }, flow)

/-- Runs a body as long as a condition holds, or until it does. -/
def runLoop : Nat → Bool → Script → Script → State → State × Flow
  | 0, _, _, _, s => (s, .leave)
  | fuel + 1, untilTrue, condition, body, s =>
    match runTested fuel condition s with
    | (s, .go) =>
      if (s.status == 0) == untilTrue then ({ s with status := 0 }, .go)
      else
        match run fuel body s with
        | (s, .go) => runLoop fuel untilTrue condition body s
        | (s, .broke n) => (s, outer n .broke)
        | (s, .continued n) =>
          if n ≤ 1 then runLoop fuel untilTrue condition body s else (s, .continued (n - 1))
        | other => other
    | (s, .broke n) => (s, outer n .broke)
    | (s, .continued n) =>
      if n ≤ 1 then runLoop fuel untilTrue condition body s else (s, .continued (n - 1))
    | other => other

def runEach : Nat → List Char → List (List Char) → Script → State → State × Flow
  | 0, _, _, _, s => (s, .leave)
  | _, _, [], _, s => (s, .go)
  | fuel + 1, name, v :: vs, body, s =>
    match run fuel body (s.assign name v) with
    | (s, .go) => runEach fuel name vs body s
    | (s, .broke n) => (s, outer n .broke)
    | (s, .continued n) =>
      if n ≤ 1 then runEach fuel name vs body s else (s, .continued (n - 1))
    | other => other

/-- The output of a script in place of a word, without its trailing line ends. -/
def substitute : Nat → State → List Char → State × List Char
  | 0, s, _ => (s, [])
  | fuel + 1, s, text =>
    let program := parse text
    match program.error with
    | some e => (s.breakOff e.message, [])
    | none =>
      let (t, _) := run fuel program.script { s with out := [], stdout := .out, traps := [] }
      let text := dropTrailing (· == '\n') (Text.decodeLossyChars t.out.reverse)
      ({ s.absorb t with out := s.out, status := t.status }, text)

def runSimple : Nat → List (List Char × Word) → List Word → List Redirect → State →
    State × Flow
  | 0, _, _, _, s => (s, .leave)
  | fuel + 1, assignments, words, redirects, s =>
    let (s, fields) := expandWords (substitute fuel) s words
    let assigned := assignments.foldl (fun s a =>
      let (s, v) := expandOne (substitute fuel) s a.2
      s.assign a.1 v) s
    if assigned.broken then (assigned, .leave)
    else
      match redirect (substitute fuel) assigned redirects with
      | .error failed => guardFailure (restore s failed)
      | .ok inner =>
        match fields with
        | [] =>
          let ran := assignments.any fun a => a.2.any Part.runs
          let status := if ran || words.any (fun w => w.any Part.runs) then inner.status else 0
          guardFailure (restoreInput s { inner with status } redirects)
        | name :: args =>
          let names := assignments.map Prod.fst
          let name := String.ofList name
          let inner := { inner with exported := names ++ inner.exported }
          let (t, flow) := runCommand fuel name args inner
          if t.broken then (t, .leave)
          else if name = "exec" && flow = .go then (t, .go)
          else
            let t := restoreInput s t redirects
            let t := if names.isEmpty || specialNames.contains name then t
              else t.restoreVariables s names
            match flow with
            | .go => guardFailure t
            | flow => (t, flow)

/-- Ends a strict script after a failure that nothing tests. -/
def guardFailure (s : State) : State × Flow :=
  if s.strict && !s.tested && s.status != 0 then (s, .leave) else (s, .go)

def runCommand : Nat → String → List (List Char) → State → State × Flow
  | 0, _, _, s => (s, .leave)
  | fuel + 1, name, args, s =>
    match s.functions.lookup name.toList with
    | some (line, body) =>
      let (t, flow) := run fuel body
        { s with params := args, loops := 0, linesAbove := line - 1, locals := [] }
      let t := t.restoreLocals
      ({ t with params := s.params, loops := s.loops, linesAbove := s.linesAbove,
                locals := s.locals }, if flow = .returned then .go else flow)
    | none =>
      match plainBuiltin? s name args with
      | some s => (s, .go)
      | none =>
        let loops := min s.loops ((args.head?.bind statusArgument?).elim 1 Int.toNat)
        match name with
        | "exit" => leaveWith s "exit" args .leave
        | "return" => leaveWith s "return" args .returned
        | "break" => ({ s with status := 0 }, if loops = 0 then .go else .broke loops)
        | "continue" => ({ s with status := 0 }, if loops = 0 then .go else .continued loops)
        | "shift" =>
          let n := (args.head?.bind statusArgument?).elim 1 Int.toNat
          if n ≤ s.params.length then ({ s with params := s.params.drop n, status := 0 }, .go)
          else ((s.complainHere "shift: can't shift that many" 2), .leave)
        | "eval" => runText fuel (spaced args) s
        | "." =>
          let file := String.ofList (args.headD [])
          if (Path.dir file).isEmpty then
            (s.complainHere (".: " ++ file ++ ": not found") 2, .leave)
          else
            match s.host.readBytes file with
            | .ok bytes =>
              let (s, flow) := runText fuel (Text.decodeLossyChars bytes) s
              (s, if flow = .returned then .go else flow)
            | .error _ =>
              (s.complainHere (".: cannot open " ++ file ++ ": No such file") 2, .leave)
        | "trap" =>
          match args with
          | action :: names =>
            let keys := names.map fun n =>
              ((signalNumber? n).map signalName).getD (String.ofList n)
            let keys := keys.map fun k => if k = "0" then "EXIT" else k
            let kept := s.traps.filter fun t => !keys.contains t.1
            let added := if action = ['-'] then [] else keys.map fun k => (k, action)
            ({ s with traps := added ++ kept, status := 0 }, .go)
          | [] => ({ s with status := 0 }, .go)
        | "kill" =>
          match killOwn? args with
          | none => ({ s with status := if args.length < 2 then 2 else 1 }, .go)
          | some 0 => ({ s with status := 0 }, .go)
          | some n =>
            match s.traps.lookup (signalName n) with
            | none => (s, .signalled n)
            | some action =>
              if n = 9 then (s, .signalled n) else runText fuel action { s with status := 0 }
        | "exec" =>
          match args with
          | [] => ({ s with status := 0 }, .go)
          | program :: args =>
            let (t, flow) := runProgramNamed fuel (String.ofList program) args s "exec: "
            match flow with
            | .signalled n => (s.absorb t, .signalled n)
            | _ => ({ s.absorb t with status := t.status }, .leave)
        | "command" =>
          match args with
          | ['-', 'v'] :: name :: _ => describe s (String.ofList name)
          | program :: args =>
            runCommand fuel (String.ofList program) args { s with functions := [] }
          | [] => ({ s with status := 0 }, .go)
        | _ =>
          let (t, flow) := runProgramNamed fuel name args s ""
          (settle s t flow, .go)

def describe (s : State) (name : String) : State × Flow :=
  if (s.functions.lookup name.toList).isSome || specialNames.contains name
      || (plainBuiltin? s name []).isSome then
    ({ s.print (Text.encode (name ++ "\n")) with status := 0 }, .go)
  else
    match programPath? s.host name with
    | some path => ({ s.print (Text.encode (path ++ "\n")) with status := 0 }, .go)
    | none => ({ s with status := 127 }, .go)

def leaveWith (s : State) (command : String) (args : List (List Char)) (flow : Flow) :
    State × Flow :=
  match args with
  | [] => (s, flow)
  | code :: _ =>
    match statusArgument? code with
    | some n => ({ s with status := n % 256 }, flow)
    | none => (s.complainHere (illegalNumber command code) 2, .leave)

/-- Runs a text as a part of the script. -/
def runText : Nat → List Char → State → State × Flow
  | 0, _, s => (s, .leave)
  | fuel + 1, text, s =>
    let program := parse text
    match run fuel program.script s, program.error with
    | (s, .go), some e =>
      ({ s with line := e.line program.last }.complainHere e.message 2, .leave)
    | result, _ => result

/-- Finds a program and runs it as a process of the script. The state is the process's. -/
def runProgramNamed : Nat → String → List (List Char) → State → String → State × Flow
  | 0, _, _, s, _ => (s, .leave)
  | fuel + 1, name, args, s, lead =>
    match findProgram s.host name (args.map String.ofList) with
    | .error .badFormat =>
      let path := (programPath? s.host name).getD name
      runProgram fuel ⟨"sh", "sh", path :: args.map String.ofList⟩ s.child
    | .error e =>
      let sought := lead.isEmpty && (Path.dir name).isEmpty
      let status := if sought || e.isAbsence then 127 else 126
      (s.complainHere (lead ++ name ++ ": " ++ reasonOf "not found" (.os e name)) status, .go)
    | .ok invocation => runProgram fuel invocation s.child

def runProgram : Nat → Invocation → State → State × Flow
  | 0, _, s => (s, .leave)
  | fuel + 1, invocation, s =>
    let args := invocation.args.map String.toList
    if invocation.program = "sh" then
      match readRequest s.host s.input invocation.name.toList false args with
      | .error message => (s.complain (invocation.name ++ message) 2, .go)
      | .ok request =>
        let start := { s with
          name := request.name, params := request.params, strict := request.strict, status := 0
          input := if request.fromInput then [] else s.input }
        match runText fuel request.text start with
        | (t, .signalled n) => (t, .signalled n)
        | (t, _) =>
          match t.traps.lookup "EXIT" with
          | none => (t, .go)
          | some action =>
            match runText fuel action { t with traps := [] } with
            | (u, .signalled n) => (u, .signalled n)
            | (u, .leave) => (u, .go)
            | (u, _) => ({ u with status := t.status }, .go)
    else if invocation.program = "env" then
      let (assigned, command) := readAssignments args
      let environment := assigned.foldl
        (fun e v => e.put (String.ofList v.1) (String.ofList v.2)) s.host.environment
      let s := { s with host := { s.host with environment } }
      match command with
      | [] => (s.print (environmentText s.host.environment), .go)
      | program :: rest =>
        let program := String.ofList program
        match findProgram s.host program (rest.map String.ofList) with
        | .ok invocation => runProgram fuel invocation s
        | .error .badFormat =>
          runProgram fuel ⟨"sh", "sh", (programPath? s.host program).getD program ::
            rest.map String.ofList⟩ s
        | .error e =>
          (s.complain (invocation.name ++ ": " ++ Text.quoted program ++ ": " ++ e.text)
            (if e.isAbsence then 127 else 126), .go)
    else (runTool invocation.program invocation.name args s, .go)

end

def processFuel : Nat := 1000000

end Shell
end FileSweep
