namespace HostRotation.Command

inductive Page where
  | overview
  | select
  | probe
  deriving DecidableEq, Repr

def Page.text : Page → String
  | .overview => "Usage: edgepick <command> [<args>]

edgepick - pick a live edge node

Options:
  --help, help      display usage information

Commands:
  select            Arguments for selecting hosts. Properties are read from
                    `--config` first, then each `-p key=value` is applied on top
                    in order. select live hosts from a configuration
  probe             Arguments for probing a single host. check whether one host
                    is alive
"
  | .select => "Usage: edgepick select [-c <config>] [-p <property...>] [--profile <profile>] " ++
    "[--exclude <exclude>] [-n <count>] [--metrics]

Arguments for selecting hosts. Properties are read from `--config` first, then each " ++
    "`-p key=value` is applied on top in order. select live hosts from a configuration

Options:
  -c, --config      path to a JSON object of configuration properties
  -p, --property    property override as key=value (repeatable)
  --profile         rotation profile name
  --exclude         host that must not be returned
  -n, --count       number of selections to perform
  --metrics         print a JSON metrics snapshot after the selections
  --help, help      display usage information
"
  | .probe => "Usage: edgepick probe [-m <method>] [-t <timeout>] [--port <port>] [--] <host>

Arguments for probing a single host. check whether one host is alive

Positional Arguments:
  host              host to probe

Options:
  -m, --method      roundRobin, roundRobinSocket or roundRobinPing
  -t, --timeout     probe timeout in milliseconds
  --port            TCP port for roundRobinSocket
  --help, help      display usage information
"

inductive UsageError where
  | unrecognized (argument : String)
  | noValue (option : String)
  | badValue (option value reason : String)
  | optionAfterHelp
  | missingArguments (names : List String)
  | missingCommand (names : List String)
  deriving DecidableEq, Repr

def indentedNames (names : List String) : String :=
  String.join (names.map fun name => "    " ++ name ++ "\n")

def UsageError.message : UsageError → String
  | .unrecognized argument => "Unrecognized argument: " ++ argument ++ "\n"
  | .noValue option => "No value provided for option '" ++ option ++ "'.\n"
  | .badValue option value reason =>
    "Error parsing option '" ++ option ++ "' with value '" ++ value ++ "': " ++ reason ++ "\n"
  | .optionAfterHelp => "Trailing arguments are not allowed after `help`."
  | .missingArguments names =>
    "Required positional arguments not provided:\n" ++ indentedNames names
  | .missingCommand names =>
    "One of the following subcommands must be present:\n" ++ indentedNames names

def UsageError.report (e : UsageError) : String :=
  e.message ++ "\nRun edgepick --help for more information.\n"

end HostRotation.Command
