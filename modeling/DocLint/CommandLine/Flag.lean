import DocLint.Settings

/-!
The flags of the command line: how they are written and what is said about them.
-/

set_option autoImplicit false

namespace DocLint

inductive Flag where
  | version | help | explain | source | debug | verbose | count | config
  | setting (key : SettingKey)
  deriving DecidableEq, Repr

namespace Flag

def general : List Flag :=
  [.version, .help, .explain, .source, .debug, .verbose, .count, .config, .setting .files,
    .setting .folders, .setting .ignoreDecorators, .setting .propertyDecorators]

def ofCodes : List Flag :=
  [.setting .select, .setting .ignore, .setting .convention, .setting .addSelect,
    .setting .addIgnore]

def all : List Flag := general ++ ofCodes

def name : Flag → Text
  | .version => "version"
  | .help => "help"
  | .explain => "explain"
  | .source => "source"
  | .debug => "debug"
  | .verbose => "verbose"
  | .count => "count"
  | .config => "config"
  | .setting key => key.name

def long (f : Flag) : Text := "--".toList ++ f.name

def short? : Flag → Option Char
  | .help => some 'h'
  | .explain => some 'e'
  | .source => some 's'
  | .debug => some 'd'
  | .verbose => some 'v'
  | _ => none

def placeholder? : Flag → Option Text
  | .config => some "<path>"
  | .setting .convention => some "<name>"
  | .setting .files | .setting .folders => some "<pattern>"
  | .setting .ignoreDecorators => some "<decorators>"
  | .setting .propertyDecorators => some "<property-decorators>"
  | .setting _ => some "<codes>"
  | _ => none

def takesValue (f : Flag) : Bool := f.placeholder?.isSome

def description : Flag → Text
  | .version => "show program's version number and exit"
  | .help => "show this help message and exit"
  | .explain => "show explanation of each error"
  | .source => "show source for each error"
  | .debug => "print debug information"
  | .verbose => "print status information"
  | .count => "print total number of errors to stdout"
  | .config => "use given config file and disable config discovery"
  | .setting .files =>
    "check only files that exactly match <pattern> regular expression; default is --match='".toList ++
      defaultFiles ++
      "' which matches files that don't start with 'test_' but end with '.py'".toList
  | .setting .folders =>
    "search only dirs that exactly match <pattern> regular expression; default is --match-dir='".toList ++
      defaultFolders ++ "', which matches all dirs that don't start with a dot".toList
  | .setting .ignoreDecorators =>
    ("ignore any functions or methods that are decorated by a function with a name fitting the " ++
        "<decorators> regular expression; default is --ignore-decorators='").toList ++
      defaultIgnoredDecorators ++ "' which does not ignore any decorated functions.".toList
  | .setting .propertyDecorators =>
    ("consider any method decorated with one of these decorators as a property, and consequently " ++
        "allow a docstring which is not in imperative mood; default is " ++
        "--property-decorators='").toList ++
      defaultPropertyDecorators ++ "'".toList
  | .setting .select =>
    "choose the basic list of checked errors by specifying which errors to check for (with a list " ++
      "of comma-separated error codes or prefixes). for example: --select=D101,D2"
  | .setting .ignore =>
    "choose the basic list of checked errors by specifying which errors to ignore out of all of " ++
      "the available error codes (with a list of comma-separated error codes or prefixes). for " ++
      "example: --ignore=D101,D2"
  | .setting .convention =>
    ("choose the basic list of checked errors by specifying an existing convention. Possible " ++
        "conventions: ").toList ++
      Text.join ", " (Convention.all.map Convention.name) ++ ".".toList
  | .setting .addSelect =>
    "add extra error codes to check to the basic list of errors previously set by --select, " ++
      "--ignore or --convention."
  | .setting .addIgnore =>
    "ignore extra error codes by removing them from the basic list previously set by --select, " ++
      "--ignore or --convention."

end Flag

end DocLint
