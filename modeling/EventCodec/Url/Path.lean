import EventCodec.Url.Domain
import EventCodec.Url.Percent

/-! # Paths

    A path is a row of segments in their encoded form, and the empty path
    is one empty segment.  A segment that is one dot means nothing, and
    one that is two dots takes the segment before it away; at the end of a
    path both leave an empty segment.  A drive letter is never taken
    away. -/

namespace EventCodec.Url

abbrev Path := List String

/-- The path of a URL that has no other. -/
def rootPath : Path := [""]

/-- Each segment with a slash in front. -/
def pathText (path : Path) : String :=
  "/" ++ "/".intercalate path

/-! ### Dots -/

def isDot (segment : String) : Bool :=
  [".", "%2e", "%2E"].contains segment

def isDoubleDot (segment : String) : Bool :=
  ["..", ".%2e", ".%2E", "%2e.", "%2E.", "%2e%2e", "%2e%2E", "%2E%2e", "%2E%2E"].contains segment

/-- A letter and a colon or a bar. -/
def isDrive (segment : String) : Bool :=
  match segment.toList with
  | [letter, mark] => letter.isAlpha && (mark == ':' || mark == '|')
  | _ => false

/-- Without the last segment, unless it is a drive letter; the last
    segment comes first here. -/
def withoutLast : List String → List String
  | [] => []
  | last :: before => if isDrive last then last :: before else before

/-- Adds segments to those done, the last one first; whether a dot leaves
    an empty segment depends on what follows. -/
def resolveFrom (done : List String) : List String → List String
  | [] => done
  | segment :: rest =>
    let after (done : List String) : List String := if rest.isEmpty then "" :: done else done
    if isDoubleDot segment then resolveFrom (after (withoutLast done)) rest
    else if isDot segment then resolveFrom (after done) rest
    else resolveFrom (segment :: done) rest

/-- A path with further segments. -/
def resolve (path : Path) (segments : List String) : Path :=
  (resolveFrom path.reverse segments).reverse

/-! ### Reading -/

def isSlash (c : Char) : Bool :=
  c == '/' || c == '\\'

/-- The path that a text with or without a slash in front stands for. -/
def pathOf (text : List Char) : Path :=
  let text := if text.head?.any isSlash then text.tail else text
  let segments := Domain.pieces '/' (text.map fun c => if isSlash c then '/' else c)
  resolve [] (segments.map fun s => String.ofList (encode isRefusedInPath s))

/-! ### Adding segments -/

/-- Tabs and line breaks, which no URL holds. -/
def isLayout (c : Char) : Bool :=
  c == '\t' || c == '\n' || c == '\r'

/-- A text as one segment. -/
def segmentOf (text : List Char) : String :=
  String.ofList (encode isRefusedInSegment text)

/-- Adds a segment at the end.  One or two dots alone are left out; if
    only layout makes the difference they mean what they mean in a path. -/
def appendSegment (path : Path) (segment : String) : Path :=
  if segment = "." || segment = ".." then path
  else
    resolve (if path = rootPath then [] else path)
      [segmentOf (segment.toList.filter (!isLayout ·))]

/-- Without an empty segment at the end of a longer path. -/
def withoutEmptyEnd (path : Path) : Path :=
  if 1 < path.length && path.getLast? == some "" then path.dropLast else path

/-- Adds segments after the last one that is not empty. -/
def appendSegments (path : Path) (segments : List String) : Path :=
  segments.foldl appendSegment (withoutEmptyEnd path)

end EventCodec.Url
