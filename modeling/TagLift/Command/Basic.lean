import TagLift.Command.Arguments
import TagLift.Run.Basic
import TagLift.Settings

/-!
# The command

The command migrates one directory. Its settings come from a settings file and from the options,
whose exclusion patterns are added to those of the file.
-/

namespace TagLift

namespace Command

def versionText : Text :=
  "migrate 0.3.0\n".toList

/-- How the command is called. -/
def usageText : Text :=
  Text.joinLines (List.map String.toList
    ["Usage: migrate [--exclude <glob path>] [--dry-run] <directory_path>",
      "  <directory_path>: Path to the directory to recursively fetch PHP files from.",
      "  --exclude <glob path>: Glob pattern for excluding files " ++
        "(e.g., */bootstrap.php, /path/to/*).",
      ""])

/-- What the command does. -/
def helpText : Text :=
  Text.joinLines (List.map String.toList
    ["Migrate PHPUnit doc comment annotations (@test, @group, @covers, @dataProvider) " ++
        "to attributes",
      "",
      "Usage: migrate [OPTIONS] [PATHS]...",
      "",
      "Arguments:",
      "  [PATHS]...  Directory to migrate recursively. Exactly one directory is expected; " ++
        "anything else prints the usage",
      "",
      "Options:",
      "  -e, --exclude <EXCLUDE>  Glob patterns to skip, matched against absolute paths " ++
        "(`*` crosses `/`). Repeatable and comma separated: " ++
        "--exclude '*/vendor/*,*/Fixtures/*'",
      "  -n, --dry-run            Report which files would change without writing them",
      "  -v, --verbose            Enable debug logging (shows every migrated directive)",
      "  -h, --help               Print help",
      "  -V, --version            Print version",
      "",
      "CONFIGURATION FILE (.phpunit-migrator.toml):",
      "  Looked up from the target directory upwards; the first one found wins.",
      "",
      "  [migrator]",
      "  exclude = [\"*/vendor/*\"]    # Glob patterns, merged with --exclude",
      "  extensions = [\"php\"]        # File extensions to process",
      "  respect_gitignore = false   # Skip files ignored by .gitignore",
      "",
      "LOGGING:",
      "  Diagnostics go to stderr. RUST_LOG overrides --verbose.",
      ""])

/-- What is said of a path that is no directory. -/
def notDirectoryText : Text :=
  "Error: Given path is not a directory.\n".toList

/-- What the command prints, its exit code, what it says on failure, and the files it leaves. -/
structure Exit where
  /-- There is no code if the command panics. -/
  code : Option Nat
  output : Text
  failure : Option Text
  files : FileSystem

/-- What is wrong with the arguments. -/
def stopMessage : ArgumentStop → Text
  | .unknownOption option =>
      "unexpected argument '".toList ++ option ++ "' found".toList
  | .missingValue =>
      "a value is required for '--exclude <EXCLUDE>' but none was supplied".toList
  | .emptyPath => "a value is required for '[PATHS]...' but none was supplied".toList
  | .misusedOption option => "the argument '".toList ++ option ++ "' cannot be used so".toList
  | .help => []
  | .version => []

/-- The options of a run, from the settings of its directory and the arguments. -/
def runOptions (settings : Settings) (arguments : Arguments) : RunOptions :=
  { exclude := settings.excludedPatterns ++ arguments.exclude
    extensions := settings.fileExtensions
    respectIgnores := settings.respectsIgnores
    dryRun := arguments.dryRun }

/-- Migrate the directory at a path. -/
def migrateDirectory (tools : Tools) (files : FileSystem) (arguments : Arguments) (path : Text) :
    Exit :=
  match files.locate path with
  | .error _ => ⟨some 1, notDirectoryText, none, files⟩
  | .ok place =>
      if files.entry? place = some .directory then
        let (settings, _) := files.settingsFor path
        let report := files.run tools (runOptions settings arguments) place
        match report.result with
        | .ok _ => ⟨some 0, report.output, none, report.files⟩
        | .error (.error cause) => ⟨some 1, report.output, some cause.message, report.files⟩
        | .error .panic => ⟨none, report.output, none, report.files⟩
      else ⟨some 1, notDirectoryText, none, files⟩

/-- The path of the directory that arguments ask to migrate. -/
def target? (arguments : List Text) : Option Text :=
  match Arguments.ofList arguments with
  | .ok ⟨[path], _, _, _⟩ => some path
  | _ => none

def run (tools : Tools) (files : FileSystem) (arguments : List Text) : Exit :=
  match Arguments.ofList arguments with
  | .error .help => ⟨some 0, helpText, none, files⟩
  | .error .version => ⟨some 0, versionText, none, files⟩
  | .error stop => ⟨some 1, [], some (stopMessage stop), files⟩
  | .ok arguments =>
      match arguments.paths with
      | [path] => migrateDirectory tools files arguments path
      | _ => ⟨some 1, usageText, none, files⟩

end Command

end TagLift
