/-
# Settings

The values that a configuration can change, and the names of the files that it cannot.
-/

namespace SourceBundle

/-- The settings of the resolution. -/
structure Settings where
  /-- The address of the registry. -/
  registryUrl : String := "https://registry.npmjs.org/"
  /-- The time in seconds after which a request is given up. -/
  requestTimeout : Int := 30
  /-- How often a request is made before it has failed. -/
  retryMax : Int := 3
  /-- The delay in seconds after the first failure; it doubles with every further one. -/
  retryDelay : Float := 0.3
  /-- The directory of everything that is fetched. -/
  depsDir : String := ".deps/"
  /-- The directory of the fetched packages. -/
  packageDir : String := ".deps/npm/"
  /-- The file of the resolution index. -/
  indexFile : String := ".deps/npm/.resolution-index.json"
  /-- The directory of the bundle snapshots. -/
  snapshotDir : String := ".deps/.bundles/"
  /-- The file of the remappings. -/
  remappingsFile : String := "remappings.txt"
  /-- The file of the project configuration. -/
  projectConfigFile : String := "remix.config.json"
  /-- Whether the project configuration is read for remappings. -/
  useFileConfiguration : Bool := true
  /-- Whether fetched packages are written to the workspace. -/
  materialize : Bool := true
  /-- Whether bundles are written to the workspace. -/
  writeSnapshot : Bool := false
deriving Inhabited

/-- The file that declares a package. -/
def manifestFile : String := "package.json"

/-- The file of the versions that one package manager locked. -/
def yarnLockFile : String := "yarn.lock"

/-- The file of the versions that the other package manager locked. -/
def packageLockFile : String := "package-lock.json"

end SourceBundle
