import ReplayShell.Text.ClusterClass

/-!
# Clusters

A text is taken apart into what a reader takes for its characters, by the rules of Unicode for
extended grapheme clusters.

* `joins` says whether a character continues a cluster; the rules are tried in their order.
* `clusters` are the clusters of a text; `flatten_clusters` says that they are all of it.
-/
namespace ReplayShell.Text

/-- Whether two neighbours belong together whatever stands before them. -/
def ClusterClass.attracts : ClusterClass → ClusterClass → Option Bool
  | .carriageReturn, .lineFeed => some true
  | .carriageReturn, _ | .lineFeed, _ | .control, _ => some false
  | _, .carriageReturn | _, .lineFeed | _, .control => some false
  | .hangulLead, .hangulLead | .hangulLead, .hangulVowel
  | .hangulLead, .hangulOpen | .hangulLead, .hangulClosed => some true
  | .hangulOpen, .hangulVowel | .hangulOpen, .hangulTrail => some true
  | .hangulVowel, .hangulVowel | .hangulVowel, .hangulTrail => some true
  | .hangulClosed, .hangulTrail | .hangulTrail, .hangulTrail => some true
  | _, .extend | _, .joiner | _, .spacingMark => some true
  | .prepend, _ => some true
  | _, _ => none

/-- Whether a character neither ends nor makes a conjunct, and only extends what is before it. -/
def extendsConjunct (c : Char) : Bool :=
  let cls := ClusterClass.of c
  (cls = .extend && c != '\u200c') || cls = .joiner

/-- Whether a cluster, its last character first, ends with a consonant and a sign that links it to
the next one. -/
def endsWithLink (linked : Bool) : List Char → Bool
  | [] => false
  | c :: before =>
    if linkerRanges.covers c then endsWithLink true before
    else if extendsConjunct c then endsWithLink linked before
    else linked && consonantRanges.covers c

/-- Whether a cluster, its last character first, ends with a picture and a joiner. -/
def endsWithJoinedPicture : List Char → Bool
  | [] => false
  | c :: before =>
    ClusterClass.of c = .joiner &&
      ((before.dropWhile fun d => ClusterClass.of d = .extend).head?.any pictographicRanges.covers)

/-- Whether a cluster, its last character first, ends with the first half of a flag. -/
def endsWithHalfFlag (cluster : List Char) : Bool :=
  (cluster.takeWhile fun c => ClusterClass.of c = .regional).length % 2 = 1

/-- Whether a character continues a cluster, given with its last character first. -/
def joins (cluster : List Char) (c : Char) : Bool :=
  match cluster with
  | [] => false
  | last :: _ =>
    match (ClusterClass.of last).attracts (ClusterClass.of c) with
    | some answer => answer
    | none =>
      (consonantRanges.covers c && endsWithLink false cluster) ||
        (pictographicRanges.covers c && endsWithJoinedPicture cluster) ||
        (ClusterClass.of c = .regional && endsWithHalfFlag cluster)

/-- The clusters of a text after the characters of the current one, the last of them first. -/
def clustersFrom (current : List Char) : List Char → List (List Char)
  | [] => [current.reverse]
  | c :: rest =>
    if joins current c then clustersFrom (c :: current) rest
    else current.reverse :: clustersFrom [c] rest

/-- The clusters of a text. -/
def clusters : List Char → List (List Char)
  | [] => []
  | c :: rest => clustersFrom [c] rest

theorem flatten_clustersFrom (current text : List Char) :
    (clustersFrom current text).flatten = current.reverse ++ text := by
  induction text generalizing current with
  | nil => simp [clustersFrom]
  | cons c rest ih =>
    unfold clustersFrom
    split
    · simp [ih]
    · simp [ih]

theorem flatten_clusters (text : List Char) : (clusters text).flatten = text := by
  cases text with
  | nil => rfl
  | cons c rest => simp [clusters, flatten_clustersFrom]

end ReplayShell.Text
