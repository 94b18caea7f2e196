namespace CportNode.Cli

inductive UsageError
  | missingRequiredArgument
  | argumentConflict
  | invalidValue
  | unknownArgument
  | tooManyValues
  | invalidSubcommand
  | missingSubcommand
  | displayHelp
  | displayHelpOnMissingArgumentOrSubcommand
  | valueValidation (reason : String)
  deriving DecidableEq

def UsageError.name : UsageError → String
  | missingRequiredArgument => "missing-required-argument"
  | argumentConflict => "argument-conflict"
  | invalidValue => "invalid-value"
  | unknownArgument => "unknown-argument"
  | tooManyValues => "too-many-values"
  | invalidSubcommand => "invalid-subcommand"
  | missingSubcommand => "missing-subcommand"
  | displayHelp => "display-help"
  | displayHelpOnMissingArgumentOrSubcommand => "display-help-on-missing-argument-or-subcommand"
  | valueValidation _ => "value-validation"

def UsageError.text : UsageError → String
  | missingRequiredArgument => "a required argument is missing"
  | argumentConflict => "an argument cannot be used together with another"
  | invalidValue => "an argument has no usable value"
  | unknownArgument => "unexpected argument"
  | tooManyValues => "a flag takes no value"
  | invalidSubcommand => "unrecognized subcommand"
  | missingSubcommand => "a subcommand is missing"
  | displayHelp => "help was asked for"
  | displayHelpOnMissingArgumentOrSubcommand => "a subcommand is missing"
  | valueValidation reason => "invalid value: " ++ reason

def UsageError.exitCode : UsageError → Nat
  | displayHelp => 0
  | _ => 2

def usage : String :=
  "\n".intercalate [
    "usage: greybus [--format json|table|pretty|raw] COMMAND",
    "",
    "  serve PATH -c FILE [--manifest FILE]",
    "  send PATH --cport CPORT --type TYPE [--hex DIGITS | --data TEXT | --file FILE]",
    "       [--oneshot] [--timeout TIME]",
    "  config PATH",
    "  version [--extended]"]

end CportNode.Cli
