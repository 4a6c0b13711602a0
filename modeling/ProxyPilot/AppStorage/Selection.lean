import ProxyPilot.Data.Paths
import ProxyPilot.Data.Text

namespace ProxyPilot.AppStorage

open Data

/-! # Where a cleanup may remove an item from (`selection.js`) -/

abbrev Text := List Char

abbrev Pattern := Text → Bool

def literal (word : String) : Pattern := fun t => t == word.toList

def repeated (allowed : Char → Bool) (least : Nat) (most : Option Nat) : Pattern := fun t =>
  decide (least ≤ t.length) && (most.all fun bound => decide (t.length ≤ bound)) && t.all allowed

/-- One pattern, then another: some split of the text matches. -/
def followed (front back : Pattern) : Pattern := fun t => (List.range (t.length + 1)).any fun i =>
    front (t.take i) && back (t.drop i)

def matchAll : List Pattern → Pattern
  | [] => literal ""
  | [last] => last
  | first :: rest => followed first (matchAll rest)

def oneOfChars (extra : String) (c : Char) : Bool := c.isAlphanum || extra.toList.contains c

/-- `[1-9][0-9]*` with at most so many further digits. -/
def wholeNumber (more : Option Nat) : Pattern :=
  followed (repeated (fun c => c.isDigit && c != '0') 1 (some 1)) (repeated Char.isDigit 0 more)

def jobUuid : Pattern := repeated (fun c => lowerHexChar c || c == '-') 36 (some 36)

def attemptRe : Pattern := matchAll [jobUuid, literal "-", wholeNumber none]

def bundleRe : Pattern := matchAll [jobUuid, literal "-", wholeNumber none, literal ".bundle"]

def releaseRe : Pattern :=
  matchAll [repeated lowerHexChar 40 (some 40), literal "-p", wholeNumber none, literal "-", jobUuid]

def reportRe : Pattern := fun t =>
    (["test-results", "playwright-report", "coverage", ".nyc_output"].map String.toList).contains t

def anyName : Pattern := fun t => !t.isEmpty && codeUnits t ≤ 255 && t.all fun c => c != '/' && c.toNat != 0

def debRe : Pattern := fun t => ".deb".toList.isSuffixOf t

def sqlRe : Pattern := matchAll [literal "app-", repeated (oneOfChars "._-") 1 (some 120), literal ".sql"]

def unitCopyRe : Pattern :=
  matchAll [repeated (oneOfChars "@._-") 1 none, literal ".pre-", repeated (oneOfChars "-") 1 (some 80)]

def environmentCopyRe : Pattern := matchAll [literal "environment.pre-", repeated (oneOfChars "-") 1 (some 80)]

def deployRe : Pattern :=
  matchAll [repeated (oneOfChars "-") 1 (some 64), literal ".", repeated (oneOfChars ".") 1 (some 40)]

def hostBundleRe : Pattern :=
  matchAll [literal "bundle-app", wholeNumber (some 15), literal "-", repeated (oneOfChars "") 1 (some 40)]

inductive Category where
  | temp
  | caches
  | logs
  | history
  | testReports
  | workspaces
  | archives
  | releases
  | other
deriving DecidableEq

structure Item where
  category : Category
  /-- `location === 'host'` -/
  onHost : Bool
  /-- `action === 'remove-release'` -/
  removesRelease : Bool
  /-- `kind === 'group'` -/
  isGroup : Bool
  path : Option Text
  members : List (Option Text)

/-- `absolute` of the profile: what a stored profile path has passed. -/
def profilePath (value : Text) : Bool :=
  isAbsolute value && decide (2 ≤ value.length) && value.all (fun c => oneOfChars "_./-" c) &&
    normalize value == value

structure ProfilePath where
  text : Text
  valid : profilePath text = true

structure Profile where
  sourceDir : Option ProfilePath
  releaseRoot : Option ProfilePath
  preservePaths : List ProfilePath
  envFiles : List ProfilePath

inductive TargetKind where
  | application (id : Nat) (profile : Profile)
  | project (appDir : Option Text) (repoMount : Option ProfilePath)

structure Target where
  kind : TargetKind
  serviceHome : Option Text
  serviceUserHome : Option Text
  homes : List Text

def slash : Text := ['/']

def inside (root x : Text) : Bool := x == root || (if root = slash then slash else root ++ slash).isPrefixOf x

def number (n : Nat) : Text := (toString n).toList

def releaseRootOf (target : Target) : Option Text :=
  match target.kind with
  | .application id profile =>
    some ((profile.releaseRoot.map ProfilePath.text).getD
      ("/var/lib/proxypilot/application-releases/".toList ++ number id))
  | .project _ _ => none

def isOwnPath (p : Text) : Bool := isAbsolute p && normalize p == p && p != slash

def appDirOf (appDir : Option Text) : Text := (appDir.filter isOwnPath).getD "/srv/app".toList

def isHome (h : Text) : Bool := isOwnPath h && decide (3 ≤ (h.splitOn '/').length)

def homesOf (target : Target) : List Text :=
  ("/root".toList :: (target.serviceHome.toList ++ target.serviceUserHome.toList ++
    target.homes).filter isHome).eraseDups

structure RemovalRule where
  dir : Text
  name : Pattern
  maxDepth : Nat := 1
  notUnder : List Text := []

/-- `/^(\/home\/[A-Za-z0-9._-]+)\/(?:\.npm|\.cache)\/[^/]+$/`: the home. -/
def cacheHome (p : Text) : Option Text :=
  match p.splitOn '/' with
  | [root, home, user, store, name] =>
    if root = [] ∧ home = "home".toList ∧ repeated (oneOfChars "._-") 1 none user = true ∧
      (store = ".npm".toList ∨ store = ".cache".toList) ∧ name ≠ [] then
      some ("/home/".toList ++ user)
    else none
  | _ => none

/-- `path.dirname` -/
def dirname (p : Text) : Text :=
  match ((p.drop 1).reverse.dropWhile (· == '/')).dropWhile (· != '/') with
  | [] => if isAbsolute p then slash else ['.']
  | _ :: front => if isAbsolute p ∧ front = [] then ['/', '/'] else p.take 1 ++ front.reverse

def cacheRules (home : Text) : List RemovalRule :=
  [{ dir := home ++ "/.npm".toList, name := anyName }, { dir := home ++ "/.cache".toList, name := anyName }]

def hostTransferRoot : Text := "/var/lib/proxypilot/application-release-transfers".toList

def reportRules (item : Item) (target : Target) : List RemovalRule :=
  match target.kind with
  | .project appDir _ =>
    [{ dir := appDirOf appDir, name := reportRe },
      { dir := appDirOf appDir ++ "/.mock2/evidence".toList, name := anyName }]
  | .application _ _ =>
    match item.path.map dirname with
    | some dir =>
      if dir ≠ slash ∧ 2 ≤ (dir.splitOn '/').length ∧
        ((releaseRootOf target).all fun root => !inside root dir) = true then
        [{ dir := dir, name := reportRe }]
      else []
    | none => []

def categoryRules (item : Item) (target : Target) : List RemovalRule :=
  match item.category with
  | .temp => [{ dir := "/tmp".toList, name := anyName }, { dir := "/var/tmp".toList, name := anyName }]
  | .caches =>
    (homesOf target).flatMap cacheRules ++ (cacheHome (item.path.getD [])).toList.flatMap cacheRules ++
      [{ dir := "/var/cache/apt/archives".toList, name := debRe }] ++
      match target.kind with
      | .project appDir _ => [{ dir := appDirOf appDir ++ "/.mock2".toList, name := literal "cache" }]
      | .application _ _ => []
  | .logs => [{ dir := "/var/log".toList, name := anyName, maxDepth := 2, notUnder := ["/var/log/journal".toList] }]
  | .history =>
    [{ dir := "/var/backups/proxypilot-db".toList, name := sqlRe },
      { dir := "/etc/systemd/system".toList, name := unitCopyRe },
      { dir := "/etc".toList, name := environmentCopyRe }, { dir := "/run/mock2-deploy".toList, name := deployRe }]
  | .testReports => reportRules item target
  | .workspaces =>
    (releaseRootOf target).toList.map fun root => { dir := root ++ "/.staging".toList, name := attemptRe }
  | .archives =>
    if item.onHost then [{ dir := hostTransferRoot, name := hostBundleRe }]
    else (releaseRootOf target).toList.map fun root => { dir := root ++ "/.staging".toList, name := bundleRe }
  | .releases =>
    if item.removesRelease then (releaseRootOf target).toList.map fun root =>
      { dir := root, name := releaseRe } else []
  | .other => []

/-- The (directory, name) rules of the item's category. -/
def removalRules (item : Item) (target : Target) : List RemovalRule :=
  (categoryRules item target).filter fun rule => !rule.dir.isEmpty

def databaseDirs : List Text :=
  ["/var/lib/postgresql", "/var/lib/mysql", "/var/lib/redis", "/var/lib/mongodb"].map String.toList

/-- Paths no cleanup ever removes, nor removes a parent of. -/
def protectedPaths (target : Target) (item : Item) : List Text :=
  databaseDirs ++
    match target.kind with
    | .application _ profile =>
      ((profile.preservePaths ++ profile.envFiles).filter fun x => isAbsolute x.text).map
        (fun x => Data.normalize x.text) ++
        -- without a release layout the source directory's untracked test reports may go
        (if item.category = .testReports ∧ profile.releaseRoot = none then []
          else (profile.sourceDir.map ProfilePath.text).toList)
    | .project appDir repoMount =>
      [appDirOf appDir ++ "/state".toList, appDirOf appDir ++ "/data".toList,
        (repoMount.map ProfilePath.text).getD "/srv/repo.git".toList]

def usable (p : Text) : Bool :=
  isAbsolute p && normalize p == p && p != slash && p.getLast? != some '/' && !p.contains (Char.ofNat 0)

def RemovalRule.covers (r : RemovalRule) (p : Text) : Bool :=
  if p == r.dir || !inside r.dir p then false
  else
    let rel := (p.drop (r.dir.length + 1)).splitOn '/'
    if rel.length > r.maxDepth || !(rel.getLast?.any r.name) then false else !r.notUnder.any fun x => inside x p

def protectedProblem (p : Text) (item : Item) (target : Target) (q : Text) : Option String :=
  if inside q p && !(decide (item.category = .caches) && (homesOf target).contains q) then
    some "Inside data or settings that are never cleaned up."
  else if inside p q then some "Contains data or settings that are never cleaned up."
  else none

def onePathAllowed (path : Option Text) (item : Item) (target : Target) (rules : List RemovalRule) :
    Option String :=
  match path.filter usable with
  | none => some "The item has no usable location."
  | some p =>
    if !rules.any fun r => r.covers p then some "Outside the locations this cleanup may change."
    else (protectedPaths target item).findSome? (protectedProblem p item target)

/-- The paths that an item covers. -/
def coveredPaths (item : Item) : List (Option Text) := if item.isGroup then item.members else [item.path]

/-- The approved roots, or the reason why the item may not be removed. -/
def pathAllowed (item : Item) (target : Target) : Except String (List Text) :=
  let rules := removalRules item target
  if rules.isEmpty then .error "This kind of item is never removed by a cleanup."
  else if (coveredPaths item).isEmpty then .error "This group has no members."
  else
    match (coveredPaths item).findSome? fun p => onePathAllowed p item target rules with
    | some reason => .error reason
    | none => .ok (rules.map RemovalRule.dir).eraseDups

end ProxyPilot.AppStorage
