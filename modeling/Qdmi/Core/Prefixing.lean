import Qdmi.Core.Tool
import Qdmi.Lib.Words

/-!
# Prefixed Headers

`PrefixHandling.cmake`: replacing the names of the device interface in a header.

Every device publishes the interface under names of its own, so a header is
copied with a prefix before each of the names in `prefix_defs.txt`. The names
are replaced one after the other, each by one replacement of a regular
expression over the whole text. The expression asks for a character on both
sides of the name that cannot belong to an identifier and captures the two, so
it puts them back, but it has matched them. A header is a text without null
bytes.

## Main definitions

* `replacements`: The names in `prefix_defs.txt`.
* `Identifier`: What may be a prefix.
* `prefixed`: A name with the prefix before it.
* `replaceDefinition`: The replacement of one name.
* `replaceDefinitions`: The loop of `generate_prefixed_qdmi_headers`.
-/

namespace Qdmi

/-- The lines of `prefix_defs.txt`. -/
def replacements : List (List UInt8) :=
  [ascii "QDMI_device_initialize",
   ascii "QDMI_device_finalize",
   ascii "QDMI_device_session_alloc",
   ascii "QDMI_device_session_init",
   ascii "QDMI_device_session_free",
   ascii "QDMI_device_session_set_parameter",
   ascii "QDMI_device_session_create_device_job",
   ascii "QDMI_device_session_retrieve_device_job_by_id",
   ascii "QDMI_device_job_free",
   ascii "QDMI_device_job_set_parameter",
   ascii "QDMI_device_job_set_programs",
   ascii "QDMI_device_job_get_program",
   ascii "QDMI_device_job_get_program_status",
   ascii "QDMI_device_job_query_property",
   ascii "QDMI_device_job_submit",
   ascii "QDMI_device_job_cancel",
   ascii "QDMI_device_job_check",
   ascii "QDMI_device_job_wait",
   ascii "QDMI_device_job_get_results",
   ascii "QDMI_device_session_query_device_property",
   ascii "QDMI_device_session_query_site_property",
   ascii "QDMI_device_session_query_operation_property",
   ascii "QDMI_Device_Session",
   ascii "QDMI_Device_Session_impl_d",
   ascii "QDMI_Device_Job",
   ascii "QDMI_Device_Job_impl_d",
   ascii "QDMI_Site",
   ascii "QDMI_Site_impl_d",
   ascii "QDMI_Operation",
   ascii "QDMI_Operation_impl_d",
   ascii "QDMI_Child_Device",
   ascii "QDMI_Child_Device_impl_d",
   ascii "QDMI_STATIC_DEFINE",
   ascii "QDMI_EXPORT",
   ascii "QDMI_DRIVER_EXPORT",
   ascii "QDMI_NO_EXPORT",
   ascii "QDMI_device_EXPORTS",
   ascii "QDMI_driver_EXPORTS",
   ascii "QDMI_DEPRECATED",
   ascii "QDMI_DEPRECATED_EXPORT",
   ascii "QDMI_DEPRECATED_NO_EXPORT"]

/-- A C identifier. -/
structure Identifier where
  chars : List UInt8
  word : ∀ c ∈ chars, isWord c = true
  start : ∃ c ∈ chars.head?, isDigit c = false

/-- `${prefix}_${replacement}`. -/
def prefixed (devicePrefix : Identifier) (replacement : List UInt8) : List UInt8 :=
  devicePrefix.chars ++ ascii "_" ++ replacement

/-- One turn of the loop: the name between two characters that belong to no
    identifier, with the prefix before it. -/
def replaceDefinition (devicePrefix : Identifier) (headerContent replacement : List UInt8) :
    List UInt8 :=
  replaceDelimited isWord replacement (prefixed devicePrefix replacement) headerContent

/-- The loop of `generate_prefixed_qdmi_headers` over the names. -/
def replaceDefinitions (devicePrefix : Identifier) (replacements : List (List UInt8))
    (headerContent : List UInt8) : List UInt8 :=
  replacements.foldl (replaceDefinition devicePrefix) headerContent

end Qdmi
