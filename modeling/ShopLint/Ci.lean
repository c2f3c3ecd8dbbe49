import ShopLint.Text.Case

/-!
Build services, recognised by the environment variables they set.
-/

namespace ShopLint.Ci

inductive Kind
  | github
  | gitlab
  | bitbucket
  deriving DecidableEq, Repr

def Kind.name : Kind → String
  | github => "github"
  | gitlab => "gitlab"
  | bitbucket => "bitbucket"

/-- What a build service says of the revision it builds. -/
structure Build where
  kind : Kind
  branch : String
  commit : String
  deriving DecidableEq, Repr

variable (lookup : String → String)

def kind? : Option Kind :=
  if lookup "GITHUB_REPOSITORY" ≠ "" || lookup "GITHUB_SHA" ≠ "" then some .github
  else if Text.equalFold (lookup "GITLAB_CI") "true" || lookup "CI_PROJECT_PATH" ≠ "" then some .gitlab
  else if lookup "BITBUCKET_WORKSPACE" ≠ "" || lookup "BITBUCKET_REPO_SLUG" ≠ "" then some .bitbucket
  else none

/-- The first of the variables that is set. -/
def firstSet (names : List String) : String :=
  ((names.map lookup).find? (· ≠ "")).getD ""

/-- A tag comes before a branch, and a branch before a pull request. -/
def branchOf : Kind → String
  | .github => lookup "GITHUB_REF_NAME"
  | .gitlab =>
    firstSet lookup ["CI_COMMIT_TAG", "CI_MERGE_REQUEST_SOURCE_BRANCH_NAME", "CI_COMMIT_REF_NAME"]
  | .bitbucket =>
    let branch := firstSet lookup ["BITBUCKET_TAG", "BITBUCKET_BRANCH"]
    if branch = "" && lookup "BITBUCKET_PR_ID" ≠ "" then "pull/" ++ lookup "BITBUCKET_PR_ID" else branch

def commitOf : Kind → String
  | .github => lookup "GITHUB_SHA"
  | .gitlab => lookup "CI_COMMIT_SHA"
  | .bitbucket => lookup "BITBUCKET_COMMIT"

/-- The build that the variables tell of. -/
def detect : Option Build :=
  (kind? lookup).map fun kind => ⟨kind, branchOf lookup kind, commitOf lookup kind⟩

/-- The variables that are looked up. -/
def variableNames : List String := [
  "GITHUB_REPOSITORY", "GITHUB_SHA", "GITHUB_REF_NAME", "GITLAB_CI", "CI_PROJECT_PATH", "CI_COMMIT_TAG",
  "CI_MERGE_REQUEST_SOURCE_BRANCH_NAME", "CI_COMMIT_REF_NAME", "CI_COMMIT_SHA", "BITBUCKET_WORKSPACE",
  "BITBUCKET_REPO_SLUG", "BITBUCKET_TAG", "BITBUCKET_BRANCH", "BITBUCKET_PR_ID", "BITBUCKET_COMMIT"]

end ShopLint.Ci
