import Yabwf.Buffer

/-!
`response.c`: status lines, headers and error pages. Everything goes through
`req_write` and its escaping variants, and the pages end with `req_flush`.

* `printHttpHeaders` and the other printers: pieces of a header.
* `sendRPage`: the common shape of the pages; each page is an instance of it.
* `completeResponse`: what happens when a range has been sent.
-/

namespace Yabwf

/-- `HTML`. -/
def htmlType : Bytes := str "text/html; charset=ISO-8859-1"

/-- `http_ver_string`. -/
def httpVerString : HttpVersion → Bytes
  | .http09 => str "HTTP/0.9"
  | .http10 => str "HTTP/1.0"
  | .http11 => str "HTTP/1.1"
  | .unset => str "HTTP/1.0"

/-- `print_content_type`, which goes by the URI. -/
def printContentType (cfg : Config) (c : Conn) : Conn :=
  let mimeType := getMimeType cfg c.req.requestUri
  let c := c |> reqWrite (str "Content-Type: ") |> reqWrite mimeType
  let c :=
    match cfg.defaultCharset with
    | some charset =>
        if hasPrefixCase (str "text") mimeType then
          c |> reqWrite (str "; charset=") |> reqWrite charset
        else c
    | none => c
  c |> reqWrite crlf

/-- `print_content_length`. -/
def printContentLength (c : Conn) : Conn :=
  c |> reqWrite (str "Content-Length: ") |> reqWrite (simpleItoa c.req.filesize)
    |> reqWrite crlf

/-- `print_last_modified`. -/
def printLastModified (env : Env) (c : Conn) : Conn :=
  c |> reqWrite (str "Last-Modified: " ++ env.rfc822 c.req.lastModified ++ crlf)

/-- `print_ka_phrase`. -/
def printKaPhrase (cfg : Config) (c : Conn) : Conn :=
  if 0 < c.req.kacount ∧ c.req.keepalive = .active ∧ c.req.responseStatus < 500 then
    c |> reqWrite (str "Connection: Keep-Alive\r\nKeep-Alive: timeout=")
      |> Conn.note .promised
      |> reqWrite (simpleItoa cfg.kaTimeout)
      |> reqWrite (str ", max=")
      |> reqWrite (simpleItoa c.req.kacount)
      |> reqWrite crlf
  else c |> reqWrite (str "Connection: close\r\n")

/-- `print_http_headers`. -/
def printHttpHeaders (cfg : Config) (env : Env) (c : Conn) : Conn :=
  let c := c |> reqWrite (str "Date: " ++ env.rfc822 0 ++ crlf)
  let c :=
    if cfg.concealServerIdentity then c
    else c |> reqWrite (str "Server: " ++ serverVersion ++ crlf)
  c |> reqWrite (str "Accept-Ranges: bytes\r\n") |> printKaPhrase cfg

/-- `print_content_range`. -/
def printContentRange (c : Conn) : Conn :=
  let range := c.req.ranges.headD ⟨0, 0⟩
  c |> reqWrite (str "Content-Range: bytes ")
    |> reqWrite (simpleItoa range.start)
    |> reqWrite (str "-")
    |> reqWrite (simpleItoa range.stop)
    |> reqWrite (str "/")
    |> reqWrite (simpleItoa c.req.filesize)
    |> reqWrite crlf

/-- `print_partial_content_continue`. -/
def printPartialContentContinue (cfg : Config) (c : Conn) : Conn :=
  let c :=
    if 1 < c.req.numranges then c |> reqWrite (str "\r\n--THIS_STRING_SEPARATES\r\n") else c
  c |> printContentType cfg |> printContentRange

/-- `print_partial_content_done`. -/
def printPartialContentDone (c : Conn) : Conn :=
  c |> reqWrite (str "\r\n--THIS_STRING_SEPARATES--\r\n")

/-- `complete_response`: `0` when the response is complete, `1` when there is more to
send. -/
def completeResponse (cfg : Config) (c : Conn) : ℤ × Conn :=
  let c := c.upd fun r => { r with ranges := r.ranges.tail }
  if c.req.responseStatus = 206 ∧ 1 < c.req.numranges then
    if c.req.ranges ≠ [] then (1, c |> printPartialContentContinue cfg |> reqWrite crlf)
    else (1, (reqFlush (c |> printPartialContentDone |> Conn.setStatus .done)).2)
  else (0, c.setStatus .done)

/-- `req->response_status = …`. -/
def Conn.setResponse (code : ℕ) (c : Conn) : Conn :=
  c.upd fun r => { r with responseStatus := code }

/-- `SQUASH_KA`. -/
def Conn.squashKa (c : Conn) : Conn := c.upd fun r => { r with keepalive := .stopped }

/-- The status line and the headers that all responses have. -/
def statusLine (cfg : Config) (env : Env) (line : String) (c : Conn) : Conn :=
  c |> reqWrite (httpVerString c.req.httpVersion) |> reqWrite (str line)
    |> Conn.note .headed |> printHttpHeaders cfg env

/-- `send_r_request_ok`. -/
def sendRRequestOk (cfg : Config) (env : Env) (c : Conn) : Conn :=
  let c := c.setResponse 200
  if c.req.httpVersion = .http09 then c
  else
    let c := c |> statusLine cfg env " 200 OK\r\n"
    if c.req.cgiType = .none then
      c |> printContentLength |> printLastModified env |> printContentType cfg
        |> reqWrite crlf
    else c

/-- `send_r_no_content`. -/
def sendRNoContent (cfg : Config) (env : Env) (c : Conn) : Conn :=
  let c := c.setResponse 204
  if c.req.httpVersion = .http09 then c
  else
    let c := c |> statusLine cfg env " 204 NO CONTENT\r\n"
    if c.req.cgiType = .none then c |> reqWrite crlf else c

/-- `send_r_partial_content`. -/
def sendRPartialContent (cfg : Config) (env : Env) (c : Conn) : Conn :=
  let c := c.setResponse 206 |> statusLine cfg env " 206 Partial Content\r\n"
    |> printLastModified env
  let c :=
    if 1 < c.req.numranges then
      c |> reqWrite (str "Content-Type: multipart/byteranges; boundary=THIS_STRING_SEPARATES\r\n")
        |> reqWrite crlf
    else
      let range := c.req.ranges.headD ⟨0, 0⟩
      c |> reqWrite (str "Content-Length: ")
        |> reqWrite (simpleItoa ((range.stop + 2 ^ 64 - range.start + 1) % 2 ^ 64))
        |> reqWrite crlf
  c |> printPartialContentContinue cfg |> reqWrite crlf

/-- `send_r_not_modified`. -/
def sendRNotModified (cfg : Config) (env : Env) (c : Conn) : Conn :=
  (reqFlush (c.squashKa.setResponse 304 |> statusLine cfg env " 304 Not Modified\r\n"
    |> printContentType cfg |> reqWrite crlf)).2

/-! ### Pages -/

/-- The shape of a page: a header with its own fields unless the request is `HTTP/0.9`,
a body unless the method is `HEAD`, and a flush. -/
def sendRPage (cfg : Config) (env : Env) (code : ℕ) (line : String)
    (fields body : Conn → Conn) (c : Conn) : Conn :=
  let c := c.squashKa.setResponse code
  let c :=
    if c.req.httpVersion = .http09 then c else c |> statusLine cfg env line |> fields
  let c := if c.req.method = .head then c else body c
  (reqFlush c).2

/-- The field that ends the header of most pages. -/
def htmlField (c : Conn) : Conn :=
  c |> reqWrite (str "Content-Type: " ++ htmlType ++ str "\r\n\r\n")

/-- The fields of the two pages that say how long they are. -/
def lengthField (body : Bytes) (c : Conn) : Conn :=
  c |> reqWrite (str "Content-Length: ") |> reqWrite (simpleItoa body.length)

/-- A body with the URI in it. -/
def uriBody (before after : String) (c : Conn) : Conn :=
  c |> reqWrite (str before) |> reqWriteEscapeHtml (.elsewhere c.req.requestUri) |> reqWrite (str after)

/-- The body of a redirection. -/
def movedBody (before : String) (url : Text) (c : Conn) : Conn :=
  c |> reqWrite (str before) |> reqWriteEscapeHtml url
    |> reqWrite (str "\">here</A>.\n</BODY></HTML>\n")

/-- The fields of a redirection up to its location. -/
def movedFields (url : Text) (c : Conn) : Conn :=
  c |> reqWrite (str "Content-Type: " ++ htmlType ++ crlf) |> reqWrite (str "Location: ")
    |> reqWriteEscapeHttp url

/-- `send_r_moved_perm`. -/
def sendRMovedPerm (cfg : Config) (env : Env) (url : Bytes) : Conn → Conn :=
  sendRPage cfg env 301 " 301 Moved Permanently\r\n"
    (fun c => c |> movedFields (.elsewhere url) |> reqWrite (str "\r\n\r\n"))
    (movedBody ("<HTML><HEAD><TITLE>301 Moved Permanently</TITLE></HEAD>\n" ++
      "<BODY>\n<H1>301 Moved</H1>The document has moved\n<A HREF=\"") (.elsewhere url))

/-- `send_r_moved_temp`. Its strings may lie in the buffer that is being written, so they
are read when they are used. -/
def sendRMovedTemp (cfg : Config) (env : Env) (url : Text) (moreHdr : Request → Bytes) :
    Conn → Conn :=
  sendRPage cfg env 302 " 302 Moved Temporarily\r\n"
    (fun c =>
      let c := c |> movedFields url |> reqWrite crlf
      c |> reqWrite (moreHdr c.req) |> reqWrite (str "\r\n\r\n"))
    (movedBody ("<HTML><HEAD><TITLE>302 Moved Temporarily</TITLE></HEAD>\n" ++
      "<BODY>\n<H1>302 Moved</H1>The document has moved\n<A HREF=\"") url)

/-- `send_r_bad_request`. -/
def sendRBadRequest (cfg : Config) (env : Env) : Conn → Conn :=
  sendRPage cfg env 400 " 400 Bad Request\r\n" htmlField
    (reqWrite (str ("<HTML><HEAD><TITLE>400 Bad Request</TITLE></HEAD>\n" ++
      "<BODY><H1>400 Bad Request</H1>\nYour client has issued " ++
      "a malformed or illegal request.\n</BODY></HTML>\n")))

/-- `send_r_forbidden`. -/
def sendRForbidden (cfg : Config) (env : Env) : Conn → Conn :=
  sendRPage cfg env 403 " 403 Forbidden\r\n" htmlField
    (uriBody ("<HTML><HEAD><TITLE>403 Forbidden</TITLE></HEAD>\n" ++
      "<BODY><H1>403 Forbidden</H1>\nYour client does not have permission to get URL ")
      " from this server.\n</BODY></HTML>\n")

/-- `send_r_not_found`. -/
def sendRNotFound (cfg : Config) (env : Env) : Conn → Conn :=
  sendRPage cfg env 404 " 404 Not Found\r\n" htmlField
    (uriBody ("<HTML><HEAD><TITLE>404 Not Found</TITLE></HEAD>\n" ++
      "<BODY><H1>404 Not Found</H1>\nThe requested URL ")
      " was not found on this server.\n</BODY></HTML>\n")

/-- The body of `send_r_invalid_range`. -/
def invalidRangeBody : Bytes :=
  str ("<HTML><HEAD><TITLE>416 Invalid Range</TITLE></HEAD>\n" ++
    "<BODY><H1>416 Invalid Range</H1>\n</BODY></HTML>\n")

/-- `send_r_invalid_range`. -/
def sendRInvalidRange (cfg : Config) (env : Env) : Conn → Conn :=
  sendRPage cfg env 416 " 416 Invalid Range\r\n"
    (fun c => c |> lengthField invalidRangeBody
      |> reqWrite (str "\r\nContent-Type: " ++ htmlType ++ str "\r\n\r\n"))
    (reqWrite invalidRangeBody)

/-- `send_r_error`. -/
def sendRError (cfg : Config) (env : Env) : Conn → Conn :=
  sendRPage cfg env 500 " 500 Server Error\r\n" htmlField
    (reqWrite (str ("<HTML><HEAD><TITLE>500 Server Error</TITLE></HEAD>\n" ++
      "<BODY><H1>500 Server Error</H1>\nThe server encountered " ++
      "an internal error and could not complete your request.\n</BODY></HTML>\n")))

/-- `send_r_not_implemented`, which writes its body for every method. -/
def sendRNotImplemented (cfg : Config) (env : Env) (c : Conn) : Conn :=
  let c := c.squashKa.setResponse 501
  let c :=
    if c.req.httpVersion = .http09 then c
    else c |> statusLine cfg env " 501 Not Implemented\r\n" |> htmlField
  (reqFlush (c |> reqWrite (str ("<HTML><HEAD><TITLE>501 Not Implemented</TITLE></HEAD>\n" ++
    "<BODY><H1>501 Not Implemented</H1>\nPOST to non-script " ++
    "is not supported in Boa.\n</BODY></HTML>\n")))).2

/-- `send_r_bad_gateway`. -/
def sendRBadGateway (cfg : Config) (env : Env) : Conn → Conn :=
  sendRPage cfg env 502 " 502 Bad Gateway\r\n" htmlField
    (reqWrite (str ("<HTML><HEAD><TITLE>502 Bad Gateway</TITLE></HEAD>\n" ++
      "<BODY><H1>502 Bad Gateway</H1>\nThe CGI was " ++
      "not CGI/1.1 compliant.\n</BODY></HTML>\n")))

/-- The body of `send_r_service_unavailable`. -/
def serviceUnavailableBody : Bytes :=
  str ("<HTML><HEAD><TITLE>503 Service Unavailable</TITLE></HEAD>\n" ++
    "<BODY><H1>503 Service Unavailable</H1>\n" ++
    "There are too many connections in use right now.\n" ++
    "Please try again later.\n</BODY></HTML>\n")

/-- `send_r_service_unavailable`. -/
def sendRServiceUnavailable (cfg : Config) (env : Env) : Conn → Conn :=
  sendRPage cfg env 503 " 503 Service Unavailable\r\n"
    (fun c => c |> lengthField serviceUnavailableBody |> reqWrite crlf |> htmlField)
    (reqWrite serviceUnavailableBody)

end Yabwf
