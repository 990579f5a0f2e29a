import SchemaQuery.Text.Cut

/-! Hiding secrets in connection URLs, so that they can be shown.  Three stars stand for the
password in front of the host, and for the value of every parameter that names a secret. -/

namespace SchemaQuery.Connection

def mask : List Char := ['*', '*', '*']

/-- Whether a character ends the authority of a URL. -/
def endsAuthority (c : Char) : Bool := c == '/' || c == '?'

/-- The credentials with what follows the first colon hidden. -/
def maskCredentials (credentials : List Char) : List Char :=
  match Text.cutFirst ':' credentials with
  | some (user, _) => user ++ ':' :: mask
  | none => credentials

/-- The authority with its password hidden; the last `@` ends the credentials. -/
def maskAuthority (authority : List Char) : List Char :=
  match Text.cutLast '@' authority with
  | some (credentials, address) => maskCredentials credentials ++ '@' :: address
  | none => authority

/-- The URL with the password of its authority hidden. -/
def maskPassword (url : List Char) : List Char :=
  match Text.cutAt [':', '/', '/'] url with
  | some (scheme, rest) =>
    scheme ++ [':', '/', '/'] ++ maskAuthority (rest.takeWhile fun c => !endsAuthority c) ++
      rest.dropWhile fun c => !endsAuthority c
  | none => url

/-- The letter a character is compared as.  Of all characters outside ASCII only the Kelvin sign has
a lower-case form in ASCII. -/
def foldLetter (c : Char) : Char := if c = '\u212A' then 'k' else c.toLower

/-- The names of parameters whose values are secret, in lower case. -/
def secretNames : List (List Char) :=
  ["password".toList, "pass".toList, "pwd".toList, "token".toList]

/-- Whether a parameter of that name is secret. -/
def isSecretName (name : List Char) : Bool := secretNames.contains (name.map foldLetter)

def maskParameter (parameter : List Char) : List Char :=
  match Text.cutFirst '=' parameter with
  | some (name, _) => if isSecretName name then name ++ '=' :: mask else parameter
  | none => parameter

/-- The URL with the secret parameters after its first question mark hidden. -/
def maskParameters (url : List Char) : List Char :=
  match Text.cutFirst '?' url with
  | some (location, query) =>
    location ++ '?' :: List.intercalate ['&'] ((Text.cutAll '&' query).map maskParameter)
  | none => url

/-- The URL with its secrets hidden. -/
def redactUrl (url : String) : String :=
  String.ofList (maskParameters (maskPassword url.toList))

end SchemaQuery.Connection
