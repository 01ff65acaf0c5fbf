import LiveSync.Text.Decimal

/-!
# Status codes

The codes by which a server says how a request went, with the phrases that
go with the registered ones.
-/

namespace LiveSync.Http

/-- **A status code.** -/
abbrev Status := UInt16

namespace Status

/-- The registered codes and their phrases. -/
def phrases : List (Status × String) :=
  [(100, "Continue"), (101, "Switching Protocols"), (102, "Processing"), (200, "OK"),
    (201, "Created"), (202, "Accepted"), (203, "Non Authoritative Information"),
    (204, "No Content"), (205, "Reset Content"), (206, "Partial Content"),
    (207, "Multi-Status"), (208, "Already Reported"), (226, "IM Used"),
    (300, "Multiple Choices"), (301, "Moved Permanently"), (302, "Found"), (303, "See Other"),
    (304, "Not Modified"), (305, "Use Proxy"), (307, "Temporary Redirect"),
    (308, "Permanent Redirect"), (400, "Bad Request"), (401, "Unauthorized"),
    (402, "Payment Required"), (403, "Forbidden"), (404, "Not Found"),
    (405, "Method Not Allowed"), (406, "Not Acceptable"),
    (407, "Proxy Authentication Required"), (408, "Request Timeout"), (409, "Conflict"),
    (410, "Gone"), (411, "Length Required"), (412, "Precondition Failed"),
    (413, "Payload Too Large"), (414, "URI Too Long"), (415, "Unsupported Media Type"),
    (416, "Range Not Satisfiable"), (417, "Expectation Failed"), (418, "I'm a teapot"),
    (421, "Misdirected Request"), (422, "Unprocessable Entity"), (423, "Locked"),
    (424, "Failed Dependency"), (425, "Too Early"), (426, "Upgrade Required"),
    (428, "Precondition Required"), (429, "Too Many Requests"),
    (431, "Request Header Fields Too Large"), (451, "Unavailable For Legal Reasons"),
    (500, "Internal Server Error"), (501, "Not Implemented"), (502, "Bad Gateway"),
    (503, "Service Unavailable"), (504, "Gateway Timeout"),
    (505, "HTTP Version Not Supported"), (506, "Variant Also Negotiates"),
    (507, "Insufficient Storage"), (508, "Loop Detected"), (510, "Not Extended"),
    (511, "Network Authentication Required")]

/-- What is said of a code that is not registered. -/
def unknownPhrase : String := "<unknown status code>"

/-- **A code with its phrase.** -/
def text (s : Status) : String :=
  Decimal.natText s.toNat ++ " " ++ (phrases.lookup s).getD unknownPhrase

/-- Whether the request was carried out. -/
def isSuccess (s : Status) : Bool := 200 ≤ s && s < 300

/-- Whether the request was at fault. -/
def isClientError (s : Status) : Bool := 400 ≤ s && s < 500

/-- Whether a response has no content whatever it carries. -/
def hasNoContent (s : Status) : Bool := s < 200 || s = 204 || s = 304

end Status

end LiveSync.Http
