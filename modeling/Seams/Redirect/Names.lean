import Seams.NameSet

/-! # Names that are redirected unless told otherwise
Main definitions:
* **`Redirect.usualWhitelist`** — functions whose results differ from run to run;
* **`Redirect.usualBlacklist`** — functions that must be called directly. -/

namespace Seams.Redirect

/-- The functions that are redirected unless told otherwise. -/
def usualWhitelist : NameSet := NameSet.ofList
  ["mt_rand", "rand", "uniqid", "hash_hmac", "md5", "sha1", "hash", "time", "microtime", "date",
   "function_exists", "openssl_random_pseudo_bytes"]

/-- The functions that are not redirected unless told otherwise: those that take arguments by
reference or depend on who calls them, and the exit signal. -/
def usualBlacklist : NameSet := NameSet.ofList
  ["call_user_func_array", "exit__", "get_instance", "get_config", "load_class", "get_mimes",
   "_get_validation_object", "preg_replace", "preg_match", "preg_match_all", "array_unshift",
   "array_shift", "sscanf", "ksort", "krsort", "str_ireplace", "str_replace", "is_callable",
   "flock", "end", "idn_to_ascii", "show_404", "show_error", "redirect"]

end Seams.Redirect
