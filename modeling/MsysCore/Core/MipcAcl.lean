import MsysCore.Python.Values

/-!
# Authorization on the private channel

Embedding of `mipc_acl.py`: topics and subscription patterns, and the exact
permission strings that authorize a call or an event. A topic or a pattern comes
from a packet and may be any JSON value.
-/

namespace MsysCore.Core

open Python

def maxTopicLength : ℕ := 128

def isAlnum (c : ℕ) : Bool :=
  (48 ≤ c && c ≤ 57) || (65 ≤ c && c ≤ 90) || (97 ≤ c && c ≤ 122)

def topicChar (c : ℕ) : Bool := isAlnum c || (lit "._:-").contains c

def validTopicText (topic : PyStr) : Bool :=
  match topic with
  | [] => false
  | first :: _ => topic.length ≤ maxTopicLength && isAlnum first && topic.all topicChar

def star : ℕ := 42

def endsWithStar (pattern : PyStr) : Bool := pattern.getLast? == some star

def validSubscriptionText (pattern : PyStr) : Bool :=
  if pattern = [star] then true
  else if pattern = [] ∨ maxTopicLength < pattern.length then false
  else if endsWithStar pattern then validTopicText pattern.dropLast
  else validTopicText pattern

def subscriptionMatches (pattern topic : PyStr) : Bool :=
  if pattern = [star] then true
  else if endsWithStar pattern then pattern.dropLast.isPrefixOf topic
  else pattern == topic

def subscriptionCovers (grant requested : PyStr) : Bool :=
  if !validSubscriptionText grant || !validSubscriptionText requested then false
  else if grant = [star] then true
  else if !endsWithStar grant then grant == requested
  else
    let requestedPrefix := if endsWithStar requested then requested.dropLast else requested
    grant.dropLast.isPrefixOf requestedPrefix

/-- `s.split(":", 1)[1]` of a text with a colon. -/
def afterColon (s : PyStr) : PyStr := (s.dropWhile fun c => c != 58).drop 1

def callPermissionCandidates (target method : PyStr) : List PyStr :=
  let direct := if method.isEmpty then [target] else [target ++ lit "." ++ method, target]
  let aliases :=
    if (lit "interface:").isPrefixOf target then
      let name := afterColon target
      if name.isEmpty then []
      else if method.isEmpty then [name] else [name ++ lit "." ++ method, name]
    else []
  (direct ++ aliases).eraseDups.map fun resource => lit "mipc.call:" ++ resource

def allowsCall (permissions : List PyStr) (target method : PyStr) : Bool :=
  permissions.contains (lit "mipc.call:*") ||
    (callPermissionCandidates target method).any fun permission => permissions.contains permission

inductive EventAction
  | publish | subscribe
  deriving DecidableEq

def EventAction.name : EventAction → String
  | .publish => "publish"
  | .subscribe => "subscribe"

def eventPermission (action : EventAction) (pattern : PyStr) : PyStr :=
  lit ("mipc.event:" ++ action.name ++ ":") ++ pattern

def allowsEvent (permissions : List PyStr) (action : EventAction) (requested : PyStr) : Bool :=
  let wellFormed := match action with
    | .publish => validTopicText requested
    | .subscribe => validSubscriptionText requested
  wellFormed && permissions.any fun permission =>
    let head := eventPermission action []
    head.isPrefixOf permission && subscriptionCovers (permission.drop head.length) requested

end MsysCore.Core
