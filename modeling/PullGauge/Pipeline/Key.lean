import PullGauge.Exchange.Resources

/-!
# Keys of the caches

What is kept is found again by text. Each kind of lookup writes its own kind of key.
-/

namespace PullGauge.Key

def repository (owner name : Text) : Text := owner ++ '/' :: name

def commits (owner name : Text) (number : Payload) : Text :=
  repository owner name ++ "/pr/".toList ++ number.display

def details (owner name : Text) (number : Payload) : Text :=
  commits owner name number ++ "/details".toList

def searcher : Text := "authenticated_user"

def profile (login : Text) : Text := "user:".toList ++ login

def word (t : Option Text) : Text := (Payload.ofOption Payload.text t).display

def search (query : Text) (o : Client.SearchOptions) : Text :=
  "search:".toList ++ query ++ "|page=".toList ++ Text.ofInt o.page ++ "|per_page=".toList ++
    Text.ofInt o.perPage ++ "|sort=".toList ++ word o.sort ++ "|order=".toList ++ word o.order

end PullGauge.Key
