import DiceTable.Client.Request

/-!
# Commands at the prompt

A line is cut into words at its blanks.  The first word is the verb; what follows the words that a
verb takes is ignored, except that the rest of a `roll` line names the weapon.
-/

namespace DiceTable.Console

/-- What the user may ask for. -/
inductive Command where
  | connect (apiKey table : String)
  | roll (request : RollRequest)
  | feed
  | last
  | status
  | clear
  | disconnect
  | help
  | quit
  deriving DecidableEq, Repr

/-- The reasons why a line is no command. -/
inductive UsageError where
  | empty
  | connect
  | roll
  | unknown (verb : String)
  deriving DecidableEq, Repr

/-- The wording of a reason. -/
def UsageError.message : UsageError → String
  | .empty => "empty command"
  | .connect => "usage: connect <api-key> <table-id>"
  | .roll => "usage: roll <notation> <character> [type] [weapon...]"
  | .unknown verb => "unknown command '" ++ verb ++ "', try 'help'"

/-- The lines of the help. -/
def helpLines : List String := [
  "commands:",
  "  connect <api-key> <table-id>",
  "  roll <notation> <character> [type] [weapon...]",
  "  feed | last | status | clear | disconnect | help | quit"]

/-- The help. -/
def helpText : String := String.intercalate "\n" helpLines

/-- The type of a roll that states none. -/
def defaultRollType : String := "check"

/-- The request in the words after `roll`. -/
def requestOfWords : List String → Except UsageError RollRequest
  | formula :: character :: rest =>
    let weapon := rest.drop 1
    .ok {
      formula := formula
      character := character
      rollType := rest.headD defaultRollType
      weapon := if weapon.isEmpty then none else some (String.intercalate " " weapon) }
  | _ => .error .roll

/-- The command with this verb and these further words. -/
def Command.ofWords (verb : String) (rest : List String) : Except UsageError Command :=
  match verb with
  | "connect" =>
    match rest with
    | apiKey :: table :: _ => .ok (.connect apiKey table)
    | _ => .error .connect
  | "roll" => (requestOfWords rest).map .roll
  | "feed" => .ok .feed
  | "last" => .ok .last
  | "status" => .ok .status
  | "clear" => .ok .clear
  | "disconnect" => .ok .disconnect
  | "help" => .ok .help
  | "?" => .ok .help
  | "quit" => .ok .quit
  | "exit" => .ok .quit
  | verb => .error (.unknown verb)

/-- The command in a line. -/
def Command.parse (line : String) : Except UsageError Command :=
  match Text.words line with
  | [] => .error .empty
  | verb :: rest => Command.ofWords verb rest

end DiceTable.Console
