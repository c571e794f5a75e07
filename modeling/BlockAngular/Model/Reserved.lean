/-! # Reserved names

Names that a model or a sub-block keeps for itself. No component can be declared under
one of them.
-/

namespace BlockAngular.Reserved

/-- The names that models and sub-blocks keep for their own operations and data. -/
def shared : List String :=
  ["Skip", "activate", "active", "active_blocks", "active_component_data", "active_components",
    "add_component", "all_blocks", "all_component_data", "all_components",
    "block_data_objects", "clear", "clear_suffix_value", "clone", "collect_ctypes",
    "component", "component_data", "component_data_iterindex", "component_data_objects",
    "component_map", "component_objects", "construct", "contains_component", "ctype",
    "deactivate", "del_component", "dim", "display", "doc", "find_component", "fix_all_vars",
    "get_suffix_value", "getname", "id_index_map", "index", "index_set", "is_component_type",
    "is_constructed", "is_expression_type", "is_indexed", "is_logical_type",
    "is_named_expression_type", "is_numeric_type", "is_parameter_type", "is_reference",
    "is_variable_type", "items", "iteritems", "iterkeys", "itervalues", "keys", "local_name",
    "model", "name", "parent_block", "parent_component", "pprint", "private_data",
    "reclassify_component_type", "reconstruct", "register_private_data_initializer",
    "root_block", "set_suffix_value", "set_value", "to_dense_data", "to_string",
    "transfer_attributes_from", "type", "unfix_all_vars", "valid_model_component",
    "valid_problem_types", "values", "write"]

/-- The names of inner data that models and sub-blocks share. -/
def inner : List String :=
  ["_Block_reserved_words", "_ComponentDataClass", "_DEFAULT_INDEX_CHECKING_ENABLED",
    "_PPRINT_INDENT", "_active", "_add_implicit_sets", "_anonymous_sets", "_bfs_iterator",
    "_block_data_iter", "_component", "_component_data_iter", "_component_data_iteritems",
    "_component_data_itervalues", "_component_data_objects", "_component_objects",
    "_component_typemap", "_constructed", "_construct_from_rule_using_setitem",
    "_create_objects_for_deepcopy", "_ctype", "_ctypes", "_data", "_decl", "_decl_order",
    "_deepcopy_field", "_deepcopy_iter", "_dense", "_flag_vars_as_stale", "_get_hierarchy",
    "_getitem_when_not_present", "_hide_display_components", "_implicit_subsets", "_index",
    "_index_set", "_init_tabular", "_map_from_decl_order", "_name", "_not_constructed_error",
    "_options", "_orig_module", "_parent", "_postfix_dfs_iterator", "_pprint",
    "_pprint_base_impl", "_pprint_callback", "_pprint_ctype", "_prefix_dfs_iterator",
    "_private_data", "_private_data_dict", "_private_data_initializers",
    "_process_slice_error", "_repn", "_rule", "_setitem_impl", "_setitem_when_not_present",
    "_suppress_ctypes", "_tree_iterator", "_validate_index"]

/-- The names that every object has. -/
def general : List String :=
  ["__auto_slots__", "__class__", "__contains__", "__deepcopy__", "__delattr__",
    "__delitem__", "__dict__", "__dir__", "__doc__", "__eq__", "__format__", "__ge__",
    "__getattr__", "__getattribute__", "__getitem__", "__getstate__", "__gt__", "__hash__",
    "__init__", "__init_subclass__", "__iter__", "__le__", "__len__", "__lt__", "__module__",
    "__ne__", "__new__", "__pickle_slots__", "__reduce__", "__reduce_ex__", "__repr__",
    "__setattr__", "__setitem__", "__setstate__", "__sizeof__", "__slots__", "__str__",
    "__subclasshook__", "__weakref__"]

/-- The names that only models keep. -/
def ofModels : List String :=
  ["_initialize_component", "_load_model_data", "config", "create_instance", "load",
    "preprocess", "solutions", "statistics"]

/-- Whether a sub-block keeps a name for itself. -/
def inBlock (name : String) : Bool :=
  shared.contains name || inner.contains name || general.contains name

/-- Whether a model keeps a name for itself. -/
def inModel (name : String) : Bool :=
  inBlock name || ofModels.contains name

end BlockAngular.Reserved
